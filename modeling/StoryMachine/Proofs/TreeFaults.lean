import StoryMachine.Proofs.ObjectTrees
import StoryMachine.Proofs.Questions

/-!
# Faults in the object tree

Moving an object first looks at the tree and then sets links one after the other.
A fault while it looks changes nothing, and neither does one at the first link.
What is set stays, though, when a later link turns out not to lie in dynamic
memory: these are the links of the object itself and that of the new parent.
-/

namespace StoryMachine

namespace ObjectTable

/-! ## Setting one link -/

/-- The bytes of a link of an object lie below a bound. -/
def LinkBelow (table : ObjectTable) (bound : Int) (link : Link) (id : Int) : Prop :=
  ∃ record, table.recordAddress id = .ok record ∧ 0 ≤ record + table.linkOffset link ∧
    record + table.linkOffset link + table.linkSize ≤ bound

/-- A link of an object lies in memory. -/
def Readable (table : ObjectTable) (memory : GameMemory) (link : Link) (id : Int) : Prop :=
  table.LinkBelow memory.size link id

/-- A link of an object lies in dynamic memory. -/
def Settable (table : ObjectTable) (memory : GameMemory) (link : Link) (id : Int) : Prop :=
  table.LinkBelow memory.dynamicEnd link id ∧ table.Readable memory link id

variable {table : ObjectTable} {memory after : GameMemory} {link : Link} {id target : Int}
  {fault : Fault}

private theorem linkBelow_iff {bound record : Int} (found : table.recordAddress id = .ok record) :
    table.LinkBelow bound link id ↔ 0 ≤ record + table.linkOffset link ∧
      record + table.linkOffset link + table.linkSize ≤ bound := by
  constructor
  · rintro ⟨other, present, below⟩
    rw [found] at present
    cases present
    exact below
  · exact fun below => ⟨record, found, below⟩

private theorem not_linkBelow {bound : Int} {failure : Failure}
    (missing : table.recordAddress id = .error failure) : ¬ table.LinkBelow bound link id := by
  rintro ⟨record, present, -⟩
  rw [missing] at present
  cases present

/-- The extent of memory is what it was. -/
def SameExtent (memory after : GameMemory) : Prop :=
  after.size = memory.size ∧ after.dynamicEnd = memory.dynamicEnd

private theorem SameExtent.readable (same : SameExtent memory after) :
    table.Readable after link id ↔ table.Readable memory link id := by
  unfold Readable
  rw [same.1]

private theorem SameExtent.settable (same : SameExtent memory after) :
    table.Settable after link id ↔ table.Settable memory link id := by
  unfold Settable
  rw [same.2, same.readable]

private theorem survivesWrites_sameExtent (memory : GameMemory) :
    GameMemory.SurvivesWrites (SameExtent memory) :=
  fun _ _ _ _ _ _ same => ⟨(GameMemory.size_withByte _ _ _).trans same.1, same.2⟩

/-- A word is read where both of its bytes lie in memory. -/
theorem word_eq_ok_iff {image : Image} {address : Int} :
    (∃ word, image.word address = .ok word) ↔ 0 ≤ address ∧ address + 2 ≤ image.size := by
  constructor
  · rintro ⟨word, read⟩
    obtain ⟨⟨start, -⟩, ⟨-, stop⟩, -⟩ := Image.word_eq_ok read
    omega
  · rintro ⟨start, inside⟩
    unfold Image.word
    rw [Image.byte_of_holds ⟨start, by omega⟩, Result.ok_bind,
      Image.byte_of_holds ⟨by omega, by omega⟩]
    exact ⟨_, rfl⟩

/-- A link is read where it lies in memory. -/
theorem readable_iff :
    table.Readable memory link id ↔ ∃ target, table.link memory.toImage link id = .ok target := by
  unfold Readable ObjectTable.link
  cases found : table.recordAddress id with
  | error failure =>
      refine ⟨fun below => absurd below (not_linkBelow found), ?_⟩
      rintro ⟨target, read⟩
      cases read
  | ok record =>
      rw [linkBelow_iff found, Result.ok_bind]
      unfold linkSize
      split
      · constructor
        · rintro ⟨start, inside⟩
          exact ⟨_, Image.byte_of_holds ⟨start, by omega⟩⟩
        · rintro ⟨target, read⟩
          obtain ⟨start, inside⟩ := (Image.byte_eq_ok read).1
          exact ⟨start, by omega⟩
      · exact word_eq_ok_iff.symm

private theorem write_eq_fault {address value : Int}
    (failed : GameMemory.write address value memory = .error (.fault fault) after) :
    after = memory ∧ (address < 0 ∨ memory.dynamicEnd ≤ address) := by
  unfold GameMemory.write at failed
  split at failed
  · rename_i outside
    cases failed
    exact ⟨rfl, outside⟩
  split at failed
  · cases failed
  · cases failed

/-- A word that is refused by a fault is not written in part. -/
theorem writeWord_eq_fault {address value : Int}
    (failed : GameMemory.writeWord address value memory = .error (.fault fault) after) :
    after = memory ∧ (address < 0 ∨ memory.dynamicEnd ≤ address + 1) := by
  unfold GameMemory.writeWord at failed
  rw [Action.get_bind] at failed
  dsimp only at failed
  split at failed
  · rename_i outside
    cases failed
    exact ⟨rfl, outside⟩
  · rename_i inside
    -- Both bytes lie in dynamic memory, so that neither is refused.
    rcases Action.bind_eq_error failed with high | ⟨_, between, high, low⟩
    · have outside := (write_eq_fault high).2
      omega
    · have outside := (write_eq_fault low).2
      have same : between.dynamicEnd = memory.dynamicEnd := by
        have kept := GameMemory.keeps_write (survivesWrites_sameExtent memory) address
          (Word.high (Word.ofInt value)) (by omega) memory ⟨rfl, rfl⟩
        have extent := kept.finalState
        rw [Action.finalState_of_ok high] at extent
        exact extent.2
      omega

/-- A link is set as a whole or, if it does not lie in dynamic memory, not at all. -/
theorem setLink_eq_fault {value : Int}
    (failed : table.setLink link id value memory = .error (.fault fault) after) :
    after = memory ∧ ¬ table.Settable memory link id := by
  unfold setLink at failed
  cases found : table.recordAddress id with
  | error failure =>
      rw [found] at failed
      cases failed
      exact ⟨rfl, fun settable => not_linkBelow found settable.1⟩
  | ok record =>
      rw [found, Action.lift_bind] at failed
      unfold Settable
      rw [linkBelow_iff found]
      unfold linkSize
      split at failed
      · rename_i early
        obtain ⟨same, outside⟩ := write_eq_fault failed
        rw [if_pos early]
        exact ⟨same, by omega⟩
      · rename_i late
        obtain ⟨same, outside⟩ := writeWord_eq_fault failed
        rw [if_neg late]
        exact ⟨same, by omega⟩

/-- Where dynamic memory is part of the image, nothing but a fault comes of a link outside it. -/
theorem setLink_of_not_settable (fits : memory.dynamicEnd ≤ memory.size) (value : Int)
    (refused : ¬ table.Settable memory link id) :
    ∃ fault, table.setLink link id value memory = .error (.fault fault) memory := by
  unfold setLink
  cases found : table.recordAddress id with
  | error failure =>
      unfold recordAddress at found
      split at found
      · cases found
      · cases found
        exact ⟨_, rfl⟩
  | ok record =>
      rw [Action.lift_bind]
      unfold Settable Readable at refused
      rw [linkBelow_iff found, linkBelow_iff found] at refused
      unfold linkSize at refused
      split
      · rename_i early
        rw [if_pos early] at refused
        exact ⟨_, if_pos (by omega)⟩
      · rename_i late
        rw [if_neg late] at refused
        rw [GameMemory.writeWord_eq fits, if_neg (by omega)]
        exact ⟨_, rfl⟩

private theorem sameExtent_of_setLink {value : Int}
    (done : table.setLink link id value memory = .ok () after) : SameExtent memory after := by
  have extent := (keeps_setLink (survivesWrites_sameExtent memory) table link id value (.inl rfl)
    memory ⟨rfl, rfl⟩).finalState
  rwa [Action.finalState_of_ok done] at extent

/-! ## What moving an object sets -/

/-- A link that is set in the course of a move. -/
inductive LinkChange where
  /-- The link of an object names another one. -/
  | name (kind : Link) (id target : Int)
  /-- The object stands before the first child of another. -/
  | front (id target : Int)
deriving DecidableEq, Repr

namespace LinkChange

/-- Sets the link. -/
def make (table : ObjectTable) : LinkChange → GameMemory.Edit Unit
  | name kind id target => table.setLink kind id target
  | front id target => do
      let first ← table.child (← get).toImage target
      table.setLink .sibling id first

/-- The link that is set lies in dynamic memory, and the one that is followed in memory. -/
def Possible (table : ObjectTable) (memory : GameMemory) : LinkChange → Prop
  | name kind id _ => table.Settable memory kind id
  | front id target => table.Settable memory .sibling id ∧ table.Readable memory .child target

variable {change : LinkChange} {changes : List LinkChange}

private theorem make_front (table : ObjectTable) (id target : Int) (memory : GameMemory) :
    (front id target).make table memory =
      (do
        let first ← (table.child memory.toImage target : Result Nat)
        table.setLink .sibling id first : GameMemory.Edit Unit) memory :=
  rfl

private theorem make_eq_fault (failed : change.make table memory = .error (.fault fault) after) :
    after = memory ∧ ¬ change.Possible table memory := by
  cases change with
  | name kind id target => exact setLink_eq_fault failed
  | front id target =>
      rw [make_front, child] at failed
      cases read : table.link memory.toImage .child target with
      | error failure =>
          rw [read] at failed
          cases failed
          refine ⟨rfl, fun possible => ?_⟩
          obtain ⟨first, known⟩ := readable_iff.mp possible.2
          rw [read] at known
          cases known
      | ok first =>
          rw [read, Action.lift_bind] at failed
          obtain ⟨same, refused⟩ := setLink_eq_fault failed
          exact ⟨same, fun possible => refused possible.1⟩

private theorem make_of_not_possible (fits : memory.dynamicEnd ≤ memory.size)
    (refused : ¬ change.Possible table memory) :
    ∃ fault, change.make table memory = .error (.fault fault) memory := by
  cases change with
  | name kind id target => exact setLink_of_not_settable fits target refused
  | front id target =>
      rw [make_front]
      cases read : table.child memory.toImage target with
      | error failure =>
          obtain ⟨fault, rfl⟩ : failure.IsFault := table.failsWith_child _ target failure read
          exact ⟨fault, rfl⟩
      | ok first =>
          rw [Action.lift_bind]
          refine setLink_of_not_settable fits first fun settable => refused ⟨settable, ?_⟩
          exact readable_iff.mpr ⟨first, read⟩

private theorem sameExtent_of_make (made : change.make table memory = .ok () after) :
    SameExtent memory after := by
  cases change with
  | name kind id target => exact sameExtent_of_setLink made
  | front id target =>
      rw [make_front] at made
      obtain ⟨first, between, read, linked⟩ := Action.bind_eq_ok made
      obtain ⟨-, rfl⟩ := Action.lift_eq_ok read
      exact sameExtent_of_setLink linked

private theorem possible_congr (same : SameExtent memory after) :
    change.Possible table after ↔ change.Possible table memory := by
  cases change with
  | name kind id target => exact same.settable
  | front id target => exact and_congr same.settable same.readable

/-- Sets links one after the other. -/
def makeAll (table : ObjectTable) : List LinkChange → GameMemory.Edit Unit
  | [] => pure ()
  | change :: rest => do
      change.make table
      makeAll table rest

private theorem makeAll_append (table : ObjectTable) (first rest : List LinkChange) :
    makeAll table (first ++ rest) = (do makeAll table first; makeAll table rest) := by
  induction first with
  | nil => rfl
  | cons change first ih => rw [List.cons_append, makeAll, makeAll, ih, bind_assoc]

private theorem sameExtent_of_makeAll (made : makeAll table changes memory = .ok () after) :
    SameExtent memory after := by
  induction changes generalizing memory with
  | nil =>
      cases made
      exact ⟨rfl, rfl⟩
  | cons change changes ih =>
      obtain ⟨_, between, first, others⟩ := Action.bind_eq_ok made
      have begun := sameExtent_of_make first
      have ended := ih others
      exact ⟨ended.1.trans begun.1, ended.2.trans begun.2⟩

/-- A fault at one of the links leaves those before it set. -/
theorem makeAll_eq_fault (failed : makeAll table changes memory = .error (.fault fault) after) :
    ∃ made refused rest, changes = made ++ refused :: rest ∧
      makeAll table made memory = .ok () after ∧ ¬ refused.Possible table memory := by
  induction changes generalizing memory with
  | nil => cases failed
  | cons change changes ih =>
      rcases Action.bind_eq_error failed with failed | ⟨_, between, done, failed⟩
      · obtain ⟨rfl, refused⟩ := make_eq_fault failed
        exact ⟨[], change, changes, rfl, rfl, refused⟩
      · obtain ⟨made, refused, rest, rfl, before, impossible⟩ := ih failed
        refine ⟨change :: made, refused, rest, rfl, (Action.bind_of_ok done).trans before, ?_⟩
        rwa [← possible_congr (sameExtent_of_make done)]

/-- A link that cannot be set ends the changes after those before it are made. -/
theorem makeAll_of_not_possible {made rest : List LinkChange}
    (fits : memory.dynamicEnd ≤ memory.size)
    (before : makeAll table made memory = .ok () after)
    (refused : ¬ change.Possible table memory) :
    ∃ fault, makeAll table (made ++ change :: rest) memory = .error (.fault fault) after := by
  have extent := sameExtent_of_makeAll before
  have refused' : ¬ change.Possible table after := by rwa [possible_congr extent]
  obtain ⟨fault, failed⟩ := make_of_not_possible (by rwa [extent.1, extent.2]) refused'
  refine ⟨fault, ?_⟩
  rw [makeAll_append]
  exact (Action.bind_of_ok before).trans (Action.bind_of_error failed)

end LinkChange

open LinkChange (makeAll)

/-- The end of every removal: the object names neither a parent nor a sibling. -/
def release (id : Int) : List LinkChange :=
  [.name .parent id 0, .name .sibling id 0]

/-- What removing an object sets: the link that names it, of its parent or of the sibling before
it, and then its own two links; nothing if it has no parent. -/
def removal (table : ObjectTable) (image : Image) (id : Int) : Result (List LinkChange) := do
  let parent ← table.parent image id
  if parent = 0 then return []
  let sibling ← table.sibling image id
  let first ← table.child image parent
  if first = id then return .name .child parent sibling :: release id
  let older ← table.olderSibling image id parent (table.version.maxObject + 1) first
  return .name .sibling older sibling :: release id

/-- The end of every insertion: the object becomes the first child of its new parent. -/
def adoption (id target : Int) : List LinkChange :=
  [.name .parent id target, .front id target, .name .child target id]

/-- What inserting an object sets: all that removing it sets, and then the links of its new
place. -/
def insertion (table : ObjectTable) (image : Image) (id target : Int) :
    Result (List LinkChange) := do
  let _ ← table.recordAddress id
  let _ ← table.recordAddress target
  table.checkAncestors image id target (table.version.maxObject + 1) target
  let changes ← table.removal image id
  return changes ++ adoption id target

/-- Looks at memory first and then sets links. -/
def carryOut (table : ObjectTable) (plan : Image → Result (List LinkChange)) :
    GameMemory.Edit Unit := do
  let changes ← plan (← get).toImage
  makeAll table changes

private theorem makeAll_release (table : ObjectTable) (id : Int) :
    makeAll table (release id) =
      (do table.setLink .parent id 0; table.setLink .sibling id 0 : GameMemory.Edit Unit) := by
  simp only [release, makeAll, LinkChange.make, bind_pure_unit]

private theorem makeAll_adoption (table : ObjectTable) (id target : Int) :
    makeAll table (adoption id target) =
      (do
        table.setLink .parent id target
        let first ← table.child (← get).toImage target
        table.setLink .sibling id first
        table.setLink .child target id : GameMemory.Edit Unit) := by
  simp only [adoption, makeAll, LinkChange.make, bind_pure_unit, bind_assoc]

/-- Removing an object looks first and then sets links. -/
theorem remove_eq_carryOut (table : ObjectTable) (id : Int) :
    table.remove id = table.carryOut (table.removal · id) := by
  funext memory
  unfold carryOut remove removal
  simp only [Action.get_bind]
  cases table.parent memory.toImage id with
  | error failure => rfl
  | ok parent =>
      rw [Action.lift_bind, Result.ok_bind]
      by_cases loose : parent = 0
      · rw [if_pos loose, if_pos loose]
        rfl
      rw [if_neg loose, if_neg loose, Action.get_bind]
      cases table.sibling memory.toImage id with
      | error failure => rfl
      | ok sibling =>
          rw [Action.lift_bind, Result.ok_bind, Action.get_bind]
          cases table.child memory.toImage parent with
          | error failure => rfl
          | ok first =>
              rw [Action.lift_bind, Result.ok_bind, ← makeAll_release]
              by_cases same : (first : Int) = id
              · rw [if_pos same, if_pos same]
                rfl
              rw [if_neg same, if_neg same, Action.get_bind]
              cases table.olderSibling memory.toImage id parent
                  (table.version.maxObject + 1) first with
              | error failure => rfl
              | ok older => rfl

/-- Inserting an object looks first and then sets links. -/
theorem insert_eq_carryOut (table : ObjectTable) (id target : Int) :
    table.insert id target = table.carryOut (table.insertion · id target) := by
  funext memory
  unfold insert insertion
  rw [← makeAll_adoption, remove_eq_carryOut]
  unfold carryOut
  simp only [Action.get_bind]
  cases table.recordAddress id with
  | error failure => rfl
  | ok record =>
      cases table.recordAddress target with
      | error failure => rfl
      | ok other =>
          simp only [Action.lift_bind, Result.ok_bind, Action.get_bind]
          cases table.checkAncestors memory.toImage id target
              (table.version.maxObject + 1) target with
          | error failure => rfl
          | ok checked =>
              simp only [Action.lift_bind, Result.ok_bind, bind_assoc, Action.get_bind]
              cases table.removal memory.toImage id with
              | error failure => rfl
              | ok changes =>
                  rw [Action.lift_bind, ← LinkChange.makeAll_append]
                  rfl

/-! ## How a move can fail -/

/-- A planned move did not come to its end: nothing could be planned, or some link could not be set
after those before it were. -/
def Interrupted (table : ObjectTable) (plan : Result (List LinkChange))
    (memory after : GameMemory) : Prop :=
  (∃ failure, plan = .error failure ∧ after = memory) ∨
    ∃ made refused rest, plan = .ok (made ++ refused :: rest) ∧
      makeAll table made memory = .ok () after ∧ ¬ refused.Possible table memory

variable {plan : Image → Result (List LinkChange)}

/-- A fault of a planned move changes nothing before the first link is set. -/
theorem interrupted_of_fault
    (failed : table.carryOut plan memory = .error (.fault fault) after) :
    table.Interrupted (plan memory.toImage) memory after := by
  unfold carryOut at failed
  rw [Action.get_bind] at failed
  cases planned : plan memory.toImage with
  | error failure =>
      rw [planned] at failed
      cases failed
      exact .inl ⟨_, rfl, rfl⟩
  | ok changes =>
      rw [planned, Action.lift_bind] at failed
      obtain ⟨made, refused, rest, rfl, before, impossible⟩ := LinkChange.makeAll_eq_fault failed
      exact .inr ⟨made, refused, rest, rfl, before, impossible⟩

private theorem carryOut_eq_fault_iff (fits : memory.dynamicEnd ≤ memory.size)
    (faults : Result.Faults (plan memory.toImage)) :
    (∃ fault, table.carryOut plan memory = .error (.fault fault) after) ↔
      table.Interrupted (plan memory.toImage) memory after := by
  refine ⟨fun ⟨_, failed⟩ => interrupted_of_fault failed, ?_⟩
  unfold carryOut
  rw [Action.get_bind]
  rintro (⟨failure, planned, rfl⟩ | ⟨made, refused, rest, planned, before, impossible⟩)
  · obtain ⟨fault, rfl⟩ := faults failure planned
    rw [planned]
    exact ⟨fault, rfl⟩
  · rw [planned, Action.lift_bind]
    exact LinkChange.makeAll_of_not_possible fits before impossible

private theorem faults_removal (table : ObjectTable) (image : Image) (id : Int) :
    Result.Faults (table.removal image id) := by
  simp [removal]

private theorem faults_insertion (table : ObjectTable) (image : Image) (id target : Int) :
    Result.Faults (table.insertion image id target) := by
  simp [insertion, faults_removal]

/-- After its first link a removal sets the own links of the object. -/
theorem removal_eq_ok {image : Image} {changes : List LinkChange}
    (planned : table.removal image id = .ok changes) :
    (∃ parent, table.parent image id = .ok parent) ∧
      (changes = [] ∨ ∃ first, changes = first :: release id) := by
  unfold removal at planned
  obtain ⟨parent, known, planned⟩ := Result.bind_eq_ok planned
  refine ⟨⟨parent, known⟩, ?_⟩
  split at planned
  · cases planned
    exact .inl rfl
  obtain ⟨sibling, -, planned⟩ := Result.bind_eq_ok planned
  obtain ⟨first, -, planned⟩ := Result.bind_eq_ok planned
  split at planned
  · cases planned
    exact .inr ⟨_, rfl⟩
  · obtain ⟨older, -, planned⟩ := Result.bind_eq_ok planned
    cases planned
    exact .inr ⟨_, rfl⟩

private theorem insertion_eq_ok {image : Image} {changes : List LinkChange}
    (planned : table.insertion image id target = .ok changes) :
    ∃ removed, table.removal image id = .ok removed ∧ changes = removed ++ adoption id target := by
  unfold insertion at planned
  obtain ⟨_, -, planned⟩ := Result.bind_eq_ok planned
  obtain ⟨_, -, planned⟩ := Result.bind_eq_ok planned
  obtain ⟨_, -, planned⟩ := Result.bind_eq_ok planned
  obtain ⟨removed, found, planned⟩ := Result.bind_eq_ok planned
  cases planned
  exact ⟨removed, found, rfl⟩

/-- The parent link stands before the sibling link. -/
theorem settable_parent {parent : Nat} (read : table.parent memory.toImage id = .ok parent)
    (sibling : table.Settable memory .sibling id) : table.Settable memory .parent id := by
  obtain ⟨record, found, start, inside⟩ := readable_iff.mpr ⟨parent, read⟩
  have order : table.linkOffset .parent ≤ table.linkOffset .sibling := by
    cases early : table.version.isEarly <;> simp [linkOffset, early]
  unfold Settable Readable at sibling ⊢
  rw [linkBelow_iff found, linkBelow_iff found] at sibling ⊢
  omega

/-- An interrupted move has changed nothing if all links after the first can be set. -/
theorem Interrupted.eq_of_forall {result : Result (List LinkChange)}
    (interrupted : table.Interrupted result memory after)
    (possible : ∀ first rest, result = .ok (first :: rest) →
      ∀ change ∈ rest, change.Possible table memory) : after = memory := by
  rcases interrupted with ⟨-, -, same⟩ | ⟨made, refused, rest, planned, before, impossible⟩
  · exact same
  · -- Either the first link was refused, or it was set and a later one was refused.
    cases made with
    | nil =>
        cases before
        rfl
    | cons first made =>
        exact absurd (possible first _ planned refused (by simp)) impossible

/-- An operation on the tree that ends in a fault leaves memory as it was if the sibling link of the
object and, for an insertion, the child link of its new parent lie in dynamic memory. Where
dynamic memory is part of the image, it ends in a fault exactly if it is refused before it sets a
link, or if some link that it sets does not lie in dynamic memory; then the links that it sets
before are set. -/
theorem failed_moves (table : ObjectTable) (memory after : GameMemory) (id target : Int) :
    (∀ fault, table.remove id memory = .error (.fault fault) after →
      table.Settable memory .sibling id → after = memory) ∧
    (∀ fault, table.insert id target memory = .error (.fault fault) after →
      table.Settable memory .sibling id → table.Settable memory .child target →
      after = memory) ∧
    (memory.dynamicEnd ≤ memory.size →
      ((∃ fault, table.remove id memory = .error (.fault fault) after) ↔
        table.Interrupted (table.removal memory.toImage id) memory after) ∧
      ((∃ fault, table.insert id target memory = .error (.fault fault) after) ↔
        table.Interrupted (table.insertion memory.toImage id target) memory after)) := by
  rw [remove_eq_carryOut, insert_eq_carryOut]
  refine ⟨fun fault failed sibling => ?_, fun fault failed sibling child => ?_, fun fits => ?_⟩
  · refine (interrupted_of_fault failed).eq_of_forall fun first rest planned => ?_
    obtain ⟨⟨parent, known⟩, none | ⟨link, same⟩⟩ := removal_eq_ok planned
    · cases none
    · cases same
      simp [release, LinkChange.Possible, sibling, settable_parent known sibling]
  · refine (interrupted_of_fault failed).eq_of_forall fun first rest planned => ?_
    obtain ⟨removed, found, same⟩ := insertion_eq_ok planned
    obtain ⟨⟨parent, known⟩, rfl | ⟨link, rfl⟩⟩ := removal_eq_ok found
    · cases same
      simp [LinkChange.Possible, sibling, child, child.2]
    · cases same
      simp [release, adoption, LinkChange.Possible, sibling, child, child.2,
        settable_parent known sibling]
  · exact ⟨carryOut_eq_fault_iff fits (faults_removal table _ id),
      carryOut_eq_fault_iff fits (faults_insertion table _ id target)⟩

/-- The tree of the sample with the record of the second object in static memory. -/
def strandedTree : GameMemory :=
  { sampleTree with dynamicEnd := 72 }

private theorem remove_strandedTree :
    sampleTable.remove 2 strandedTree =
      .error (.fault { cause := .notDynamic 75 72 })
        ((sampleTable.remove 2).finalState strandedTree) :=
  Action.eq_error_of_answer (by decide +kernel)

/-- The tree of the sample, but the first object does not know its child. -/
def forgottenTree : GameMemory :=
  { sampleTree with bytes := sampleTree.bytes.set! 68 0 }

/-- A child that its parent does not know is not removed, and an object is not put into its own
child: nothing changes. The child in static memory is missed by its parent afterwards. -/
theorem failed_moves_stranded :
    (sampleTable.remove 2).finalState forgottenTree = forgottenTree ∧
    (sampleTable.insert 1 2).finalState sampleTree = sampleTree ∧
    sampleTable.Interrupted (sampleTable.removal strandedTree.toImage 2) strandedTree
      ((sampleTable.remove 2).finalState strandedTree) ∧
    sampleTable.links ((sampleTable.remove 2).finalState strandedTree).toImage .child 1 = 0 ∧
    sampleTable.links ((sampleTable.remove 2).finalState strandedTree).toImage .parent 2 = 1 := by
  have missing : sampleTable.remove 2 forgottenTree =
      .error (.fault { cause := .missingFromParent 2 1 })
        ((sampleTable.remove 2).finalState forgottenTree) :=
    Action.eq_error_of_answer (by decide +kernel)
  have above : sampleTable.insert 1 2 sampleTree =
      .error (.fault { cause := .insertIntoDescendant 1 2 })
        ((sampleTable.insert 1 2).finalState sampleTree) :=
    Action.eq_error_of_answer (by decide +kernel)
  obtain ⟨unremoved, -, -⟩ := failed_moves sampleTable forgottenTree _ 2 1
  obtain ⟨-, uninserted, -⟩ := failed_moves sampleTable sampleTree _ 1 2
  obtain ⟨-, -, exactly⟩ := failed_moves sampleTable strandedTree _ 2 1
  refine ⟨unremoved _ missing ?_, uninserted _ above ?_ ?_,
    (exactly ?_).1.mp ⟨_, remove_strandedTree⟩, ?_, ?_⟩
  · exact ⟨⟨71, by decide, by decide, by decide⟩, 71, by decide, by decide, by decide⟩
  · exact ⟨⟨62, by decide, by decide, by decide⟩, 62, by decide, by decide, by decide⟩
  · exact ⟨⟨71, by decide, by decide, by decide⟩, 71, by decide, by decide, by decide⟩
  · decide
  · decide +kernel
  · decide +kernel

/-- An operation on the tree can end in a fault and have changed memory: the parent has lost an
object that still names it. -/
theorem not_forall_failed_move_unchanged :
    ¬ ∀ (table : ObjectTable) (memory after : GameMemory) (id target : Int) (fault : Fault),
        (table.remove id memory = .error (.fault fault) after ∨
          table.insert id target memory = .error (.fault fault) after) →
        after.bytes = memory.bytes := by
  intro unchanged
  have same := unchanged _ _ _ 2 1 _ (.inl remove_strandedTree)
  exact absurd same (by decide +kernel)

end ObjectTable

end StoryMachine
