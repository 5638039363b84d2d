import StoryMachine.ObjectTable.Tree
import StoryMachine.Proofs.Assignments
import StoryMachine.Proofs.Forests

/-!
# The object tree in memory

The links of a table are numbers in the bytes of its records. Where the records
lie in dynamic memory and the links form a forest, moving objects about keeps
both: the walks along the links end before their limits, an object is refused
only as its own ancestor, and nothing but links is written.
-/

namespace StoryMachine

open Links (IsObject Leads Detached)

namespace ObjectTable

/-! ## Links in memory -/

/-- What every link of every object names, as the bytes of an image say. -/
def links (table : ObjectTable) (image : Image) : Links := fun link id =>
  match table.link image link id with
  | .ok target => target
  | .error _ => 0

/-- Where the record of an object starts. -/
def recordStart (table : ObjectTable) (id : Nat) : Int :=
  table.recordsStart + table.version.objectEntrySize * ((id : Int) - 1)

/-- Where a link of an object starts. -/
def linkStart (table : ObjectTable) (link : Link) (id : Nat) : Int :=
  table.recordStart id + table.linkOffset link

/-- The bytes of a link. -/
def linkSize (table : ObjectTable) : Nat :=
  if table.version.isEarly then 1 else 2

/-- A byte of a link of one of the first `count` objects. -/
def IsLinkByte (table : ObjectTable) (count address : Nat) : Prop :=
  ∃ link id, IsObject count id ∧ table.linkStart link id ≤ address ∧
    address < table.linkStart link id + table.linkSize

/-- The records of the first `count` objects lie in dynamic memory. -/
def Within (table : ObjectTable) (memory : GameMemory) (count : Nat) : Prop :=
  ∀ id, IsObject count id → 0 ≤ table.recordStart id ∧
    table.recordStart id + table.version.objectEntrySize ≤ memory.dynamicEnd ∧
    table.recordStart id + table.version.objectEntrySize ≤ memory.size

/-- Memory has changed at most in links of the first `count` objects. -/
structure Relinked (table : ObjectTable) (count : Nat) (before after : GameMemory) : Prop where
  size : after.size = before.size
  dynamicEnd : after.dynamicEnd = before.dynamicEnd
  highStart : after.highStart = before.highStart
  bytes : ∀ address, ¬ table.IsLinkByte count address →
    after.bytes[address]? = before.bytes[address]?

variable {table : ObjectTable} {memory after final : GameMemory} {count id target : Nat}
  {link : Link}

private theorem Relinked.refl (table : ObjectTable) (count : Nat) (memory : GameMemory) :
    table.Relinked count memory memory :=
  ⟨rfl, rfl, rfl, fun _ _ => rfl⟩

private theorem Relinked.trans (first : table.Relinked count memory after)
    (second : table.Relinked count after final) : table.Relinked count memory final where
  size := second.size.trans first.size
  dynamicEnd := second.dynamicEnd.trans first.dynamicEnd
  highStart := second.highStart.trans first.highStart
  bytes := fun address apart => (second.bytes address apart).trans (first.bytes address apart)

private theorem Within.relinked (within : table.Within memory count)
    (relinked : table.Relinked count memory after) : table.Within after count := by
  intro id object
  rw [relinked.size, relinked.dynamicEnd]
  exact within id object

/-! ## Reading and writing one link -/

/-- The record of an object stands where the table has it. -/
theorem recordAddress_eq (bound : count ≤ table.version.maxObject) (object : IsObject count id) :
    table.recordAddress id = .ok (table.recordStart id) := by
  have valid : table.isValidId id = true := by
    unfold isValidId
    unfold IsObject at object
    simp only [Bool.and_eq_true, decide_eq_true_eq]
    omega
  unfold recordAddress
  rw [if_pos valid]
  rfl

/-- Two links do not share a byte. -/
theorem linkStart_apart (table : ObjectTable) {other : Link} {place : Nat}
    (apart : ¬ (other = link ∧ place = id)) :
    table.linkStart other place + table.linkSize ≤ table.linkStart link id ∨
      table.linkStart link id + table.linkSize ≤ table.linkStart other place := by
  unfold linkStart linkSize recordStart linkOffset Version.objectEntrySize
  cases table.version.isEarly <;> cases other <;> cases link <;> simp at apart ⊢ <;> omega

private theorem linkStart_within (within : table.Within memory count) (object : IsObject count id)
    (link : Link) :
    0 ≤ table.linkStart link id ∧
      table.linkStart link id + table.linkSize ≤ memory.dynamicEnd ∧
      table.linkStart link id + table.linkSize ≤ memory.size := by
  have inside := within id object
  unfold linkStart linkSize linkOffset
  unfold Version.objectEntrySize at inside
  cases early : table.version.isEarly <;> cases link <;>
    simp only [early, Bool.false_eq_true, ↓reduceIte] at inside ⊢ <;> omega

/-- The number in the bytes of a link. -/
def linkAt (table : ObjectTable) (image : Image) (address : Int) : Result Nat :=
  if table.version.isEarly then image.byte address else image.word address

/-- A link is what stands in its place in the record. -/
theorem link_eq_linkAt (valid : table.isValidId id = true) (image : Image) (link : Link) :
    table.link image link id = table.linkAt image (table.linkStart link id) := by
  unfold ObjectTable.link recordAddress linkAt
  rw [if_pos valid]
  rfl

/-- Images that agree on a byte read it alike. -/
theorem byte_congr {image other : Image} {address : Int} (size : other.size = image.size)
    (same : ∀ place : Nat, (place : Int) = address → other.bytes[place]? = image.bytes[place]?) :
    other.byte address = image.byte address := by
  have alike : other.Holds address ↔ image.Holds address := by
    unfold Image.Holds
    rw [size]
  unfold Image.byte
  simp only [alike, size]
  split
  · rename_i holds
    unfold Image.Holds at holds
    rw [Image.peek_eq_of_getElem? (same address.toNat (by omega))]
  · rfl

/-- Images that agree on two bytes read them alike. -/
theorem word_congr {image other : Image} {address : Int} (size : other.size = image.size)
    (same : ∀ place : Nat, address ≤ place → place < address + 2 →
      other.bytes[place]? = image.bytes[place]?) :
    other.word address = image.word address := by
  unfold Image.word
  rw [byte_congr size fun place there => same place (by omega) (by omega),
    byte_congr size fun place there => same place (by omega) (by omega)]

/-- Images that agree on the bytes of a link read it alike. -/
theorem linkAt_congr {image other : Image} {address : Int} (size : other.size = image.size)
    (same : ∀ place : Nat, address ≤ place → place < address + table.linkSize →
      other.bytes[place]? = image.bytes[place]?) :
    table.linkAt other address = table.linkAt image address := by
  unfold linkSize at same
  unfold linkAt
  split
  · rename_i early
    simp only [early, ↓reduceIte] at same
    exact byte_congr size fun place there => same place (by omega) (by omega)
  · rename_i late
    simp only [late, Bool.false_eq_true, ↓reduceIte] at same
    exact word_congr size same

/-- A link of one of the objects can be read. -/
theorem link_eq (bound : count ≤ table.version.maxObject) (within : table.Within memory count)
    (object : IsObject count id) (link : Link) :
    table.link memory.toImage link id = .ok (table.links memory.toImage link id) := by
  have inside := linkStart_within within object link
  have answers : ∃ target, table.link memory.toImage link id = .ok target := by
    unfold ObjectTable.link
    rw [recordAddress_eq bound object, Result.ok_bind]
    unfold linkSize linkStart at inside
    split
    · rename_i early
      simp only [early, ↓reduceIte] at inside
      exact ⟨_, Image.byte_of_holds (by unfold Image.Holds; omega)⟩
    · rename_i late
      simp only [late, Bool.false_eq_true, ↓reduceIte] at inside
      unfold Image.word
      rw [Image.byte_of_holds (by unfold Image.Holds; omega), Result.ok_bind,
        Image.byte_of_holds (by unfold Image.Holds; omega)]
      exact ⟨_, rfl⟩
  obtain ⟨target, answer⟩ := answers
  unfold links
  rw [answer]

/-- The bytes of a link are written as a whole and read back. -/
theorem writeLink_eq {address : Int} (start : 0 ≤ address)
    (dynamic : address + table.linkSize ≤ memory.dynamicEnd)
    (inside : address + table.linkSize ≤ memory.size) (bound : target ≤ table.version.maxObject) :
    ∃ after, (if table.version.isEarly then GameMemory.write address target
        else GameMemory.writeWord address target) memory = .ok () after ∧
      table.linkAt after.toImage address = .ok target ∧
      after.size = memory.size ∧ after.dynamicEnd = memory.dynamicEnd ∧
      after.highStart = memory.highStart ∧
      ∀ place : Nat, ¬ (address ≤ place ∧ place < address + table.linkSize) →
        after.bytes[place]? = memory.bytes[place]? := by
  obtain ⟨address, rfl⟩ := Int.eq_ofNat_of_zero_le start
  unfold linkSize Version.maxObject linkAt at *
  split
  · rename_i early
    simp only [early, ↓reduceIte] at dynamic inside bound ⊢
    refine ⟨_, GameMemory.write_eq target (by omega) (by omega), ?_, memory.size_withByte _ _,
      rfl, rfl, ?_⟩
    · rw [Image.byte_of_holds, Int.toNat_natCast, GameMemory.peek_withByte_self (by omega),
        Image.toNat_byte_ofInt (by omega)]
      rw [Image.Holds, GameMemory.size_withByte]
      omega
    · intro place apart
      exact Array.getElem?_setIfInBounds_ne (by omega)
  · rename_i late
    simp only [late, Bool.false_eq_true, ↓reduceIte] at dynamic inside bound ⊢
    refine ⟨_, GameMemory.writeWord_of_inside target (by omega) (by omega), ?_,
      memory.size_withWord _ _, rfl, rfl, ?_⟩
    · rw [GameMemory.word_withWord (by omega), Word.ofInt_natCast (by omega)]
    · intro place apart
      unfold GameMemory.withWord GameMemory.withByte
      rw [Array.getElem?_setIfInBounds_ne (by omega), Array.getElem?_setIfInBounds_ne (by omega)]

/-- Setting a link sets it alone. -/
theorem setLink_eq (bound : count ≤ table.version.maxObject) (within : table.Within memory count)
    (object : IsObject count id) (link : Link) (known : target ≤ count) :
    ∃ after, table.setLink link id target memory = .ok () after ∧
      table.links after.toImage = (table.links memory.toImage).set link id target ∧
      table.Relinked count memory after := by
  obtain ⟨start, dynamic, inside⟩ := linkStart_within within object link
  obtain ⟨after, written, read, size, dynamicEnd, highStart, elsewhere⟩ :=
    writeLink_eq start dynamic inside (known.trans bound)
  refine ⟨after, ?_, ?_, size, dynamicEnd, highStart, ?_⟩
  · unfold setLink
    rw [recordAddress_eq bound object]
    exact written
  · funext other place
    unfold Links.set links
    by_cases valid : table.isValidId place = true
    · rw [link_eq_linkAt valid, link_eq_linkAt valid]
      by_cases same : other = link ∧ place = id
      · rw [if_pos same, same.1, same.2, read]
      · have apart := linkStart_apart table same
        rw [if_neg same, linkAt_congr size fun address least most => elsewhere address (by omega)]
    · have invalid (image : Image) :
          table.link image other place = .fault (.invalidObject place) := by
        unfold ObjectTable.link recordAddress
        rw [if_neg valid]
        rfl
      have apart : ¬ (other = link ∧ place = id) := by
        rintro ⟨-, rfl⟩
        unfold isValidId at valid
        unfold IsObject at object
        simp only [Bool.and_eq_true, decide_eq_true_eq] at valid
        omega
      rw [invalid, invalid, if_neg apart]
  · intro address apart
    exact elsewhere address fun there => apart ⟨link, id, object, there⟩

/-! ## Walks -/

/-- The walk along a chain finds the object before another one. -/
theorem olderSibling_eq (bound : count ≤ table.version.maxObject)
    (within : table.Within memory count) {front back : List Nat} {start older : Nat} (parent : Int)
    (leads : Leads (table.links memory.toImage .sibling) start (front ++ older :: id :: back) 0)
    (objects : ∀ other ∈ front ++ [older], IsObject count other) {steps : Nat}
    (enough : front.length < steps) :
    table.olderSibling memory.toImage id parent steps start = .ok (older : Int) := by
  have nodup := leads.nodup
  induction front generalizing start steps with
  | nil =>
      obtain ⟨rfl, known, rfl, -⟩ := leads
      obtain ⟨steps, rfl⟩ : ∃ more, steps = more + 1 := ⟨steps - 1, by simp at enough; omega⟩
      unfold olderSibling sibling
      rw [if_neg (by omega), link_eq bound within (objects start (by simp)), Result.ok_bind,
        if_pos rfl]
      rfl
  | cons first front ih =>
      obtain ⟨rfl, known, tail⟩ := leads
      obtain ⟨steps, rfl⟩ : ∃ more, steps = more + 1 := ⟨steps - 1, by simp at enough; omega⟩
      -- The next object of the chain stands before the one that is looked for.
      have onward : table.links memory.toImage .sibling start ≠ id := by
        intro same
        rw [same] at tail
        have again := tail.nodup
        cases front with
        | nil =>
            obtain ⟨rfl, -⟩ := tail
            simp at again
        | cons second front =>
            obtain ⟨rfl, -⟩ := tail
            simp at again
      unfold olderSibling sibling
      rw [if_neg (by omega), link_eq bound within (objects start (by simp)), Result.ok_bind,
        if_neg (by exact_mod_cast onward)]
      refine ih tail (fun other member => objects other ?_) (by simp at enough; omega)
        (List.nodup_cons.mp nodup).2
      exact List.mem_cons_of_mem _ member

/-- The walk upwards refuses exactly the objects that it meets. -/
theorem checkAncestors_eq (bound : count ≤ table.version.maxObject)
    (within : table.Within memory count) (id target : Int) {path : List Nat} {start : Nat}
    (leads : Leads (table.links memory.toImage .parent) start path 0)
    (objects : ∀ other ∈ path, IsObject count other) {steps : Nat} (enough : path.length < steps) :
    table.checkAncestors memory.toImage id target steps start =
      if ∃ other ∈ path, (other : Int) = id then .fault (.insertIntoDescendant id target)
      else .ok () := by
  induction path generalizing start steps with
  | nil =>
      obtain rfl : start = 0 := leads
      obtain ⟨steps, rfl⟩ : ∃ more, steps = more + 1 := ⟨steps - 1, by simp at enough; omega⟩
      simp [checkAncestors]
  | cons first path ih =>
      obtain ⟨rfl, known, tail⟩ := leads
      obtain ⟨steps, rfl⟩ : ∃ more, steps = more + 1 := ⟨steps - 1, by simp at enough; omega⟩
      unfold checkAncestors
      rw [if_neg (by omega)]
      by_cases met : (start : Int) = id
      · simp [met]
      · have onward := ih tail (fun other member => objects other (List.mem_cons_of_mem _ member))
          (by simp at enough; omega : path.length < steps)
        unfold parent
        rw [if_neg met, link_eq bound within (objects start List.mem_cons_self), Result.ok_bind,
          onward]
        simp [met]

/-! ## Moving objects -/

/-- The end of a removal: the object names neither a parent nor a sibling. -/
theorem unlink_eq (bound : count ≤ table.version.maxObject) (within : table.Within memory count)
    (object : IsObject count id) :
    ∃ after,
      (do table.setLink .parent id 0; table.setLink .sibling id 0 : GameMemory.Edit Unit) memory =
        .ok () after ∧
      table.links after.toImage =
        ((table.links memory.toImage).set .parent id 0).set .sibling id 0 ∧
      table.Relinked count memory after := by
  obtain ⟨halfway, unowned, halfLinks, first⟩ :=
    setLink_eq bound within object .parent (Nat.zero_le _)
  obtain ⟨after, alone, links, second⟩ :=
    setLink_eq bound (within.relinked first) object .sibling (Nat.zero_le _)
  refine ⟨after, (Action.bind_of_ok unowned).trans alone, ?_, first.trans second⟩
  rw [links, halfLinks]

/-- An object of a forest can be taken away from its parent. -/
theorem remove_eq (bound : count ≤ table.version.maxObject) (within : table.Within memory count)
    (forest : (table.links memory.toImage).Forest count) (object : IsObject count id) :
    ∃ after, table.remove id memory = .ok () after ∧ table.Relinked count memory after ∧
      Detached count (table.links memory.toImage) (table.links after.toImage) id := by
  unfold remove parent sibling child
  rw [Action.get_bind, link_eq bound within object, Action.lift_bind]
  by_cases kept : table.links memory.toImage .parent id = 0
  · rw [if_pos kept]
    exact ⟨memory, rfl, .refl table count memory, forest.detached_of_loose object kept⟩
  have holder := forest.isObject_parent object kept
  obtain ⟨front, back, children⟩ := forest.exists_split object kept
  have next := forest.named .sibling id object
  rw [if_neg kept, Action.get_bind, link_eq bound within object, Action.lift_bind, Action.get_bind,
    link_eq bound within holder, Action.lift_bind]
  dsimp only
  by_cases first : table.links memory.toImage .child (table.links memory.toImage .parent id) = id
  · obtain ⟨halfway, moved, halfLinks, relinked⟩ := setLink_eq bound within holder .child next
    obtain ⟨after, unlinked, links, relinked'⟩ :=
      unlink_eq bound (within.relinked relinked) object
    rw [if_pos (by exact_mod_cast first), Action.bind_of_ok moved]
    refine ⟨after, unlinked, relinked.trans relinked', ?_⟩
    rw [links, halfLinks]
    exact forest.detached_of_first object kept first
  · -- Some sibling stands in front of the object.
    obtain ⟨front, older, rfl⟩ : ∃ rest older, front = rest ++ [older] := by
      rcases List.eq_nil_or_concat front with rfl | ⟨rest, older, rfl⟩
      · exact absurd children.1 first
      · exact ⟨rest, older, List.concat_eq_append⟩
    rw [List.append_assoc, List.singleton_append] at children
    have objects : ∀ other ∈ front ++ [older], IsObject count other := by
      intro other member
      refine forest.isObject_of_mem holder children ?_
      simp only [List.mem_append, List.mem_cons, List.not_mem_nil, or_false] at member ⊢
      tauto
    have short := children.length_le (forest.named .child _ holder) (forest.named .sibling)
    have enough : front.length < table.version.maxObject + 1 := by
      simp only [List.length_append, List.length_cons] at short
      omega
    have found := olderSibling_eq bound within (table.links memory.toImage .parent id) children
      objects enough
    obtain ⟨halfway, moved, halfLinks, relinked⟩ :=
      setLink_eq bound within (objects older (by simp)) .sibling next
    obtain ⟨after, unlinked, links, relinked'⟩ :=
      unlink_eq bound (within.relinked relinked) object
    rw [if_neg (by exact_mod_cast first), Action.get_bind, found, Action.lift_bind,
      Action.bind_of_ok moved]
    refine ⟨after, unlinked, relinked.trans relinked', ?_⟩
    rw [links, halfLinks]
    exact forest.detached_of_later object kept children

private theorem checkAncestors_above (bound : count ≤ table.version.maxObject)
    (within : table.Within memory count) (forest : (table.links memory.toImage).Forest count)
    (holder : IsObject count target) (id : Nat) :
    (table.checkAncestors memory.toImage id target (table.version.maxObject + 1) target =
        .fault (.insertIntoDescendant id target) ∧ (table.links memory.toImage).Above id target) ∨
      (table.checkAncestors memory.toImage id target (table.version.maxObject + 1) target =
        .ok () ∧ ¬ (table.links memory.toImage).Above id target) := by
  obtain ⟨path, ancestry⟩ := forest.rooted target holder
  have objects : ∀ other ∈ path, IsObject count other := fun other member =>
    ancestry.isObject holder.2 (forest.named .parent) member
  have short := ancestry.length_le holder.2 (forest.named .parent)
  have enough : path.length < table.version.maxObject + 1 := by omega
  have walked := checkAncestors_eq bound within id target ancestry objects enough
  simp only [Int.natCast_inj, exists_eq_right] at walked
  by_cases met : id ∈ path
  · rw [if_pos met] at walked
    exact .inl ⟨walked, path, ancestry, met⟩
  · rw [if_neg met] at walked
    refine .inr ⟨walked, ?_⟩
    rintro ⟨path', ancestry', met'⟩
    exact met (ancestry'.unique ancestry ▸ met')

/-- An object is refused as its own descendant, and nothing is done. -/
theorem insert_of_above (bound : count ≤ table.version.maxObject)
    (within : table.Within memory count) (forest : (table.links memory.toImage).Forest count)
    (object : IsObject count id) (holder : IsObject count target)
    (above : (table.links memory.toImage).Above id target) :
    table.insert id target memory = .error (.ofCause (.insertIntoDescendant id target)) memory := by
  rcases checkAncestors_above bound within forest holder id with ⟨refused, -⟩ | ⟨-, outside⟩
  · unfold insert
    rw [recordAddress_eq bound object, Action.lift_bind, recordAddress_eq bound holder,
      Action.lift_bind, Action.get_bind, refused]
    rfl
  · exact absurd above outside

/-- Any other object is taken away from its parent and put in front of the children of the new
one. -/
theorem insert_of_not_above (bound : count ≤ table.version.maxObject)
    (within : table.Within memory count) (forest : (table.links memory.toImage).Forest count)
    (object : IsObject count id) (holder : IsObject count target)
    (outside : ¬ (table.links memory.toImage).Above id target) :
    ∃ after between, table.insert id target memory = .ok () after ∧
      table.Relinked count memory after ∧
      Detached count (table.links memory.toImage) between id ∧
      table.links after.toImage = between.attached id target := by
  obtain ⟨removed, removal, relinked, detached⟩ := remove_eq bound within forest object
  have within₁ := within.relinked relinked
  have forest₁ := forest.of_detached detached
  obtain ⟨owned, owning, links₂, relinked₂⟩ := setLink_eq bound within₁ object .parent holder.2
  have within₂ := within₁.relinked relinked₂
  have first := forest₁.named .child target holder
  have unmoved :
      table.links owned.toImage .child target = table.links removed.toImage .child target := by
    rw [links₂, Links.set_of_link_ne (by simp)]
  obtain ⟨joined, joining, links₃, relinked₃⟩ := setLink_eq bound within₂ object .sibling first
  obtain ⟨after, heading, links₄, relinked₄⟩ :=
    setLink_eq bound (within₂.relinked relinked₃) holder .child object.2
  refine ⟨after, _, ?_, relinked.trans (relinked₂.trans (relinked₃.trans relinked₄)), detached, ?_⟩
  · rcases checkAncestors_above bound within forest holder id with ⟨-, above⟩ | ⟨passed, -⟩
    · exact absurd above outside
    · unfold insert child
      rw [recordAddress_eq bound object, Action.lift_bind, recordAddress_eq bound holder,
        Action.lift_bind, Action.get_bind, passed, Action.lift_bind, Action.bind_of_ok removal,
        Action.bind_of_ok owning, Action.get_bind, link_eq bound within₂ holder, unmoved,
        Action.lift_bind, Action.bind_of_ok joining, heading]
  · rw [links₄, links₃, links₂]
    rfl

/-! ## Runs of moves -/

/-- A request to move an object of the tree. -/
inductive TreeEdit where
  | insert (id target : Nat)
  | remove (id : Nat)
deriving DecidableEq, Repr

namespace TreeEdit

/-- The request names objects among the first `count`. -/
def Among (count : Nat) : TreeEdit → Prop
  | insert id target => IsObject count id ∧ IsObject count target
  | remove id => IsObject count id

/-- Carries out the request. -/
def run (table : ObjectTable) : TreeEdit → GameMemory.Edit Unit
  | insert id target => table.insert id target
  | remove id => table.remove id

end TreeEdit

/-- The memory after requests were carried out one after the other, the refused ones among them. -/
def edited (table : ObjectTable) (memory : GameMemory) (edits : List TreeEdit) : GameMemory :=
  edits.foldl (fun memory edit => (edit.run table).finalState memory) memory

/-- One request keeps the forest and changes nothing but links. -/
theorem forest_run (bound : count ≤ table.version.maxObject) (within : table.Within memory count)
    (forest : (table.links memory.toImage).Forest count) {edit : TreeEdit}
    (among : edit.Among count) :
    (table.links ((edit.run table).finalState memory).toImage).Forest count ∧
      table.Relinked count memory ((edit.run table).finalState memory) := by
  cases edit with
  | insert id target =>
      obtain ⟨object, holder⟩ := among
      by_cases above : (table.links memory.toImage).Above id target
      · have outcome := insert_of_above bound within forest object holder above
        rw [TreeEdit.run, Action.finalState_of_error outcome]
        exact ⟨forest, .refl table count memory⟩
      · obtain ⟨after, between, outcome, relinked, detached, links⟩ :=
          insert_of_not_above bound within forest object holder above
        rw [TreeEdit.run, Action.finalState_of_ok outcome, links]
        refine ⟨?_, relinked⟩
        exact forest.attached_of_detached detached object holder above
  | remove id =>
      obtain ⟨after, outcome, relinked, detached⟩ := remove_eq bound within forest among
      rw [TreeEdit.run, Action.finalState_of_ok outcome]
      exact ⟨forest.of_detached detached, relinked⟩

/-- Any number of requests keep the forest and change nothing but links. -/
theorem forest_foldl (bound : count ≤ table.version.maxObject) (within : table.Within memory count)
    (forest : (table.links memory.toImage).Forest count) {edits : List TreeEdit}
    (among : ∀ edit ∈ edits, edit.Among count) :
    (table.links (table.edited memory edits).toImage).Forest count ∧
      table.Relinked count memory (table.edited memory edits) := by
  induction edits generalizing memory with
  | nil => exact ⟨forest, .refl table count memory⟩
  | cons edit edits ih =>
      obtain ⟨forest', relinked⟩ := forest_run bound within forest (among edit List.mem_cons_self)
      obtain ⟨final, relinked'⟩ := ih (within.relinked relinked) forest' fun edit member =>
        among edit (List.mem_cons_of_mem _ member)
      exact ⟨final, relinked.trans relinked'⟩

/-- Moving objects keeps the tree. Wherever requests lead from a forest there is a forest again,
and only links have changed. An object is refused there, as a fault of the object table that
changes nothing, exactly if it is its own new parent or an ancestor of it. Otherwise it becomes the
first child and is missing from every other list of children; and removing it takes it out of the
list of its parent alone. -/
theorem forest_edited (table : ObjectTable) (memory : GameMemory) (count : Nat)
    (bound : count ≤ table.version.maxObject) (within : table.Within memory count)
    (forest : (table.links memory.toImage).Forest count) (edits : List TreeEdit)
    (among : ∀ edit ∈ edits, edit.Among count) :
    let reached := table.edited memory edits
    let links := table.links reached.toImage
    links.Forest count ∧ table.Relinked count memory reached ∧
      (∀ id target, IsObject count id → IsObject count target →
        (links.Above id target → ∃ fault, fault.kind = .object ∧
          table.insert id target reached = .error (.fault fault) reached) ∧
        (¬ links.Above id target → ∃ after, table.insert id target reached = .ok () after ∧
          table.Relinked count reached after ∧
          ∀ parent list, IsObject count parent → links.Children parent list →
            (table.links after.toImage).Children parent
              (if parent = target then id :: list.erase id else list.erase id))) ∧
      ∀ id, IsObject count id → ∃ after, table.remove id reached = .ok () after ∧
        table.Relinked count reached after ∧
        ∀ parent list, IsObject count parent → links.Children parent list →
          (table.links after.toImage).Children parent
            (if parent = links .parent id then list.erase id else list) := by
  obtain ⟨forest', relinked⟩ := forest_foldl bound within forest among
  have within' := within.relinked relinked
  refine ⟨forest', relinked, ?_, ?_⟩
  · intro id target object holder
    constructor
    · intro above
      exact ⟨_, rfl, insert_of_above bound within' forest' object holder above⟩
    · intro outside
      obtain ⟨after, between, outcome, relinked, detached, links⟩ :=
        insert_of_not_above bound within' forest' object holder outside
      refine ⟨after, outcome, relinked, fun parent list known children => ?_⟩
      rw [links]
      exact (forest'.of_detached detached).children_attached object holder detached.alone known
        (detached.children parent list known children)
  · intro id object
    obtain ⟨after, outcome, relinked, detached⟩ := remove_eq bound within' forest' object
    refine ⟨after, outcome, relinked, fun parent list known children => ?_⟩
    have left := detached.children parent list known children
    split
    · exact left
    · rename_i other
      have absent : id ∉ list := fun member =>
        other (forest'.parent_of_mem known children member).symm
      rwa [List.erase_of_not_mem absent] at left

/-- A table of two objects of which the first holds the second. -/
def sampleTree : GameMemory where
  bytes := ((Array.replicate 80 0).set! 68 2).set! 75 1
  dynamicEnd := 80
  highStart := 80

/-- The table of the sample. -/
def sampleTable : ObjectTable :=
  { address := 0, version := { number := 3 } }

private theorem within_sampleTree : sampleTable.Within sampleTree 2 := by
  rintro id ⟨least, most⟩
  obtain rfl | rfl : id = 1 ∨ id = 2 := by omega
  all_goals decide

private theorem forest_sampleTree : (sampleTable.links sampleTree.toImage).Forest 2 where
  named := by
    rintro link id ⟨least, most⟩
    obtain rfl | rfl : id = 1 ∨ id = 2 := by omega
    all_goals cases link <;> decide
  children := by
    rintro parent ⟨least, most⟩
    refine ⟨if parent = 1 then [2] else [], ?_, ?_⟩
    · obtain rfl | rfl : parent = 1 ∨ parent = 2 := by omega
      all_goals decide
    · rintro id ⟨least, most⟩
      obtain rfl | rfl : parent = 1 ∨ parent = 2 := by omega
      all_goals
        obtain rfl | rfl : id = 1 ∨ id = 2 := by omega
        all_goals decide
  loose := by
    rintro id ⟨least, most⟩
    obtain rfl | rfl : id = 1 ∨ id = 2 := by omega
    all_goals decide
  rooted := by
    rintro id ⟨least, most⟩
    refine ⟨if id = 1 then [1] else [2, 1], ?_⟩
    obtain rfl | rfl : id = 1 ∨ id = 2 := by omega
    all_goals decide

/-- The second object is put into the first again and taken out, and is refused its own parent. -/
theorem forest_edited_sample :
    (sampleTable.links
        (sampleTable.edited sampleTree [.insert 2 1, .insert 1 2, .remove 2]).toImage).Forest 2 ∧
      sampleTable.Relinked 2 sampleTree
        (sampleTable.edited sampleTree [.insert 2 1, .insert 1 2, .remove 2]) := by
  have run := forest_edited sampleTable sampleTree 2 (by decide) within_sampleTree forest_sampleTree
    [.insert 2 1, .insert 1 2, .remove 2] (by simp [TreeEdit.Among, IsObject])
  exact ⟨run.1, run.2.1⟩

end ObjectTable

end StoryMachine
