import Mathlib.Data.List.Perm.Subperm
import StoryMachine.ObjectTable

/-!
# Forests of objects

The links of a table as plain functions: every object names a parent, a sibling
and a child by number, and zero names nobody. The links form a forest if the
children of every object are the chain of siblings from its child on, and every
chain of parents ends. Taking an object out of its chain and putting it in front
of another keeps a forest, and the chains change as lists.
-/

namespace StoryMachine

/-- What each link of each object names; zero names nobody. -/
abbrev Links := Link → Nat → Nat

namespace Links

/-- A number of one of the first `count` objects. -/
def IsObject (count id : Nat) : Prop :=
  0 < id ∧ id ≤ count

instance (count id : Nat) : Decidable (IsObject count id) :=
  inferInstanceAs (Decidable (_ ∧ _))

/-- The objects of a list lead from one number to another, each to the next. -/
def Leads (next : Nat → Nat) : Nat → List Nat → Nat → Prop
  | start, [], stop => start = stop
  | start, id :: rest, stop => start = id ∧ id ≠ 0 ∧ Leads next (next id) rest stop

instance decidableLeads (next : Nat → Nat) :
    (start : Nat) → (list : List Nat) → (stop : Nat) → Decidable (Leads next start list stop)
  | start, [], stop => inferInstanceAs (Decidable (start = stop))
  | start, id :: rest, stop =>
      have := decidableLeads next (next id) rest stop
      inferInstanceAs (Decidable (start = id ∧ id ≠ 0 ∧ Leads next (next id) rest stop))

/-- The children of an object, the first one first. -/
def Children (links : Links) (parent : Nat) (list : List Nat) : Prop :=
  Leads (links .sibling) (links .child parent) list 0

instance (links : Links) (parent : Nat) (list : List Nat) :
    Decidable (links.Children parent list) :=
  inferInstanceAs (Decidable (Leads _ _ _ _))

/-- An object and its ancestors, up to one without a parent. -/
def Ancestry (links : Links) (id : Nat) (path : List Nat) : Prop :=
  Leads (links .parent) id path 0

instance (links : Links) (id : Nat) (path : List Nat) : Decidable (links.Ancestry id path) :=
  inferInstanceAs (Decidable (Leads _ _ _ _))

/-- An object is another one or an ancestor of it. -/
def Above (links : Links) (id other : Nat) : Prop :=
  ∃ path, links.Ancestry other path ∧ id ∈ path

/-- The links of the first `count` objects form a forest. -/
structure Forest (links : Links) (count : Nat) : Prop where
  /-- Every link names one of the objects, or nobody. -/
  named : ∀ link id, IsObject count id → links link id ≤ count
  /-- An object stands once among the children of its parent, and nowhere else. -/
  children : ∀ parent, IsObject count parent → ∃ list, links.Children parent list ∧
    ∀ id, IsObject count id → list.count id = if links .parent id = parent then 1 else 0
  /-- An object without a parent has no sibling. -/
  loose : ∀ id, IsObject count id → links .parent id = 0 → links .sibling id = 0
  /-- Every chain of parents ends. -/
  rooted : ∀ id, IsObject count id → ∃ path, links.Ancestry id path

/-! ## Chains -/

section Chains

variable {next other : Nat → Nat} {start stop count : Nat} {list front rest : List Nat}

private theorem leads_append :
    Leads next start (front ++ rest) stop ↔
      ∃ middle, Leads next start front middle ∧ Leads next middle rest stop := by
  induction front generalizing start with
  | nil => simp [Leads]
  | cons id front ih => simp [Leads, ih, and_assoc]

/-- A chain depends only on what its own objects name. -/
theorem Leads.congr (leads : Leads next start list stop)
    (same : ∀ id ∈ list, other id = next id) : Leads other start list stop := by
  induction list generalizing start with
  | nil => exact leads
  | cons id list ih =>
      obtain ⟨begins, object, tail⟩ := leads
      refine ⟨begins, object, ?_⟩
      rw [same id List.mem_cons_self]
      exact ih tail fun id member => same id (List.mem_cons_of_mem _ member)

/-- A chain from one object to none is determined by where it starts. -/
theorem Leads.unique {list' : List Nat} (leads : Leads next start list 0)
    (leads' : Leads next start list' 0) : list = list' := by
  induction list generalizing start list' with
  | nil =>
      cases list' with
      | nil => rfl
      | cons id rest => exact absurd (leads'.1 ▸ leads) leads'.2.1
  | cons id list ih =>
      obtain ⟨rfl, object, tail⟩ := leads
      cases list' with
      | nil => exact absurd leads' object
      | cons id' rest =>
          obtain ⟨rfl, -, tail'⟩ := leads'
          rw [ih tail tail']

/-- A chain that ends does not come back to any of its objects: from there it would go on in the
same way again. -/
theorem Leads.nodup (leads : Leads next start list 0) : list.Nodup := by
  induction list generalizing start with
  | nil => exact List.nodup_nil
  | cons id list ih =>
      obtain ⟨rfl, -, tail⟩ := leads
      refine List.nodup_cons.mpr ⟨?_, ih tail⟩
      intro again
      obtain ⟨front, back, rfl⟩ := List.append_of_mem again
      obtain ⟨middle, -, repeats⟩ := leads_append.mp tail
      obtain ⟨rfl, -, tail'⟩ := repeats
      have lengths := congrArg List.length (tail.unique tail')
      simp at lengths
      omega

/-- A chain leads through objects only. -/
theorem Leads.isObject (leads : Leads next start list stop) (begins : start ≤ count)
    (named : ∀ id, IsObject count id → next id ≤ count) {id : Nat} (member : id ∈ list) :
    IsObject count id := by
  induction list generalizing start with
  | nil => cases member
  | cons first list ih =>
      obtain ⟨rfl, object, tail⟩ := leads
      have first : IsObject count start := ⟨Nat.pos_of_ne_zero object, begins⟩
      rcases List.mem_cons.mp member with rfl | member
      · exact first
      · exact ih tail (named _ first) member

/-- A chain is no longer than there are objects. -/
theorem Leads.length_le (leads : Leads next start list 0) (begins : start ≤ count)
    (named : ∀ id, IsObject count id → next id ≤ count) : list.length ≤ count := by
  have within : list ⊆ List.range' 1 count := by
    intro id member
    have object := leads.isObject begins named member
    rw [List.mem_range'_1]
    unfold IsObject at object
    omega
  simpa using (leads.nodup.subperm within).length_le

end Chains

/-! ## Changed links -/

/-- The links with one of them changed. -/
def set (links : Links) (link : Link) (id target : Nat) : Links :=
  fun other place => if other = link ∧ place = id then target else links other place

section Changes

variable {links after : Links} {link other : Link} {id place target count : Nat}

@[simp] theorem set_self : links.set link id target link id = target := by
  simp [set]

@[simp] theorem set_of_link_ne (apart : other ≠ link) :
    links.set link id target other = links other := by
  funext place
  simp [set, apart]

private theorem set_of_ne (apart : place ≠ id) :
    links.set link id target other place = links other place := by
  simp [set, apart]

private theorem named_set (named : ∀ link id, IsObject count id → links link id ≤ count)
    (bound : target ≤ count) :
    ∀ other place, IsObject count place → links.set link id target other place ≤ count := by
  intro other place object
  unfold set
  split
  · exact bound
  · exact named other place object

end Changes

/-! ## Children -/

namespace Forest

variable {links : Links} {count id parent : Nat} {list : List Nat}

/-- Children are objects. -/
theorem isObject_of_mem (forest : links.Forest count) (object : IsObject count parent)
    (children : links.Children parent list) (member : id ∈ list) : IsObject count id :=
  children.isObject (forest.named .child parent object) (forest.named .sibling) member

/-- The children of an object are those that name it as their parent. -/
theorem mem_children_iff (forest : links.Forest count) (object : IsObject count parent)
    (children : links.Children parent list) (known : IsObject count id) :
    id ∈ list ↔ links .parent id = parent := by
  obtain ⟨list', children', counted⟩ := forest.children parent object
  obtain rfl := children.unique children'
  rw [← List.count_pos_iff, counted id known]
  split <;> simp [*]

/-- The parent of a child is the object whose child it is. -/
theorem parent_of_mem (forest : links.Forest count) (object : IsObject count parent)
    (children : links.Children parent list) (member : id ∈ list) : links .parent id = parent :=
  (forest.mem_children_iff object children
    (forest.isObject_of_mem object children member)).mp member

/-- A parent is an object. -/
theorem isObject_parent (forest : links.Forest count) (object : IsObject count id)
    (kept : links .parent id ≠ 0) : IsObject count (links .parent id) :=
  ⟨Nat.pos_of_ne_zero kept, forest.named .parent id object⟩

/-- An object with a parent stands somewhere among its children. -/
theorem exists_split (forest : links.Forest count) (object : IsObject count id)
    (kept : links .parent id ≠ 0) :
    ∃ front back, links.Children (links .parent id) (front ++ id :: back) := by
  have holder := forest.isObject_parent object kept
  obtain ⟨list, children, -⟩ := forest.children _ holder
  have member := (forest.mem_children_iff holder children object).mpr rfl
  obtain ⟨front, back, rfl⟩ := List.append_of_mem member
  exact ⟨front, back, children⟩

end Forest

/-! ## Taking an object away from its parent -/

/-- An object has been taken out of the children of its parent. -/
structure Detached (count : Nat) (links after : Links) (id : Nat) : Prop where
  named : ∀ link other, IsObject count other → after link other ≤ count
  parent : ∀ other, after .parent other = if other = id then 0 else links .parent other
  sibling : after .sibling id = 0
  loose : ∀ other, other ≠ id → links .parent other = 0 →
    after .sibling other = links .sibling other
  children : ∀ parent list, IsObject count parent → links.Children parent list →
    after.Children parent (list.erase id)

/-- An object that is detached has no parent. -/
theorem Detached.alone {count : Nat} {links after : Links} {id : Nat}
    (detached : Detached count links after id) : after .parent id = 0 := by
  rw [detached.parent, if_pos rfl]

section Detaching

variable {links after : Links} {count id : Nat}

/-- An object without a parent is detached as it is. -/
theorem Forest.detached_of_loose (forest : links.Forest count) (object : IsObject count id)
    (alone : links .parent id = 0) : Detached count links links id where
  named := forest.named
  parent := by
    intro other
    split
    · rename_i same
      rw [same, alone]
    · rfl
  sibling := forest.loose id object alone
  loose := fun _ _ _ => rfl
  children := by
    intro parent list holder children
    have absent : id ∉ list := by
      intro member
      have named := forest.parent_of_mem holder children member
      unfold IsObject at holder
      omega
    rwa [List.erase_of_not_mem absent]

/-- The chain of another parent stays as it is when neither of its objects is changed. -/
theorem Forest.children_of_ne (forest : links.Forest count) {parent : Nat}
    (other : links .parent id ≠ parent) (holder : IsObject count parent) {list : List Nat}
    (children : links.Children parent list) (begins : after .child parent = links .child parent)
    (same : ∀ place ∈ list, after .sibling place = links .sibling place) :
    after.Children parent (list.erase id) := by
  have absent : id ∉ list := fun member => other (forest.parent_of_mem holder children member)
  unfold Children at children ⊢
  rw [List.erase_of_not_mem absent, begins]
  exact children.congr same

/-- The first child of a parent is detached by moving the child of the parent on. -/
theorem Forest.detached_of_first (forest : links.Forest count) (object : IsObject count id)
    (kept : links .parent id ≠ 0) (first : links .child (links .parent id) = id) :
    Detached count links
      (((links.set .child (links .parent id) (links .sibling id)).set .parent id 0).set
        .sibling id 0) id where
  named := by
    refine named_set (named_set (named_set forest.named ?_) (Nat.zero_le _)) (Nat.zero_le _)
    exact forest.named .sibling id object
  parent := by
    intro other
    by_cases same : other = id
    · simp [same]
    · simp [same, set_of_ne same]
  sibling := by simp
  loose := by
    intro other apart _
    simp [set_of_ne apart]
  children := by
    intro parent list holder children
    by_cases own : links .parent id = parent
    · subst own
      obtain ⟨front, back, split⟩ := forest.exists_split object kept
      obtain rfl := children.unique split
      -- The chain starts at the object, so that nothing stands in front of it.
      cases front with
      | cons other front =>
          have begins : links .child (links .parent id) = other := children.1
          have repeated := children.nodup
          rw [← begins, first] at repeated
          simp at repeated
      | nil =>
          obtain ⟨-, -, tail⟩ := children
          have nodup := split.nodup
          rw [List.nil_append, List.nodup_cons] at nodup
          unfold Children
          rw [List.nil_append, List.erase_cons_head]
          simp only [ne_eq, reduceCtorEq, not_false_eq_true, set_of_link_ne, set_self]
          refine tail.congr fun place member => ?_
          have apart : place ≠ id := fun same => nodup.1 (same ▸ member)
          simp [set_of_ne apart]
    · refine forest.children_of_ne own holder children ?_ ?_
      · simp [set_of_ne (Ne.symm own)]
      · intro place member
        have apart : place ≠ id := by
          rintro rfl
          exact own (forest.parent_of_mem holder children member)
        simp [set_of_ne apart]

/-- A later child is detached by linking the sibling before it to the sibling after it. -/
theorem Forest.detached_of_later (forest : links.Forest count) (object : IsObject count id)
    (kept : links .parent id ≠ 0) {front back : List Nat} {older : Nat}
    (split : links.Children (links .parent id) (front ++ older :: id :: back)) :
    Detached count links
      (((links.set .sibling older (links .sibling id)).set .parent id 0).set .sibling id 0)
      id where
  named := by
    refine named_set (named_set (named_set forest.named ?_) (Nat.zero_le _)) (Nat.zero_le _)
    exact forest.named .sibling id object
  parent := by
    intro other
    by_cases same : other = id
    · simp [same]
    · simp [same, set_of_ne same]
  sibling := by simp
  loose := by
    intro other apart alone
    have holder := forest.isObject_parent object kept
    have member : older ∈ front ++ older :: id :: back := by simp
    have named := forest.parent_of_mem holder split member
    have apart' : other ≠ older := by
      rintro rfl
      exact kept (named.symm.trans alone)
    simp [set_of_ne apart, set_of_ne apart']
  children := by
    intro parent list holder children
    have member : older ∈ front ++ older :: id :: back := by simp
    have named := forest.parent_of_mem (forest.isObject_parent object kept) split member
    by_cases own : links .parent id = parent
    · subst own
      obtain rfl := children.unique split
      have nodup := split.nodup
      obtain ⟨middle, before, rfl, known, begins, -, tail⟩ := leads_append.mp split
      have erased : (front ++ middle :: id :: back).erase id = front ++ middle :: back := by
        simp only [List.nodup_append, List.nodup_cons, List.mem_cons, not_or] at nodup
        rw [List.erase_append_right _ fun member => nodup.2.2 _ member _ (by simp) rfl,
          List.erase_cons_tail (by simpa using nodup.2.1.1.1), List.erase_cons_head]
      simp only [List.nodup_append, List.nodup_cons, List.mem_cons, not_or] at nodup
      unfold Children
      rw [erased, leads_append]
      refine ⟨middle, ?_, rfl, known, ?_⟩
      · simp only [ne_eq, reduceCtorEq, not_false_eq_true, set_of_link_ne]
        refine before.congr fun place member => ?_
        have apart := nodup.2.2 place member
        simp [set_of_ne (apart middle (by simp)), set_of_ne (apart id (by simp))]
      · have joined : (((links.set .sibling middle (links .sibling id)).set .parent id 0).set
            .sibling id 0) .sibling middle = links .sibling id := by
          simp [set_of_ne nodup.2.1.1.1]
        rw [joined]
        refine tail.congr fun place member => ?_
        have apart : place ≠ id := fun same => nodup.2.1.2.1 (same ▸ member)
        have apart' : place ≠ middle := fun same => nodup.2.1.1.2 (same ▸ member)
        simp [set_of_ne apart, set_of_ne apart']
    · refine forest.children_of_ne own holder children ?_ ?_
      · simp
      · intro place member
        have parent' := forest.parent_of_mem holder children member
        have apart : place ≠ id := by
          rintro rfl
          exact own parent'
        have apart' : place ≠ older := by
          rintro rfl
          exact own (named.symm.trans parent')
        simp [set_of_ne apart, set_of_ne apart']

/-- What is left after an object was taken away is a forest. -/
theorem Forest.of_detached (forest : links.Forest count)
    (detached : Detached count links after id) : after.Forest count where
  named := detached.named
  children := by
    intro parent holder
    obtain ⟨list, children, counted⟩ := forest.children parent holder
    refine ⟨list.erase id, detached.children parent list holder children, ?_⟩
    intro other object
    have positive : 0 ≠ parent := Nat.ne_of_lt holder.1
    rw [List.count_erase, counted other object, detached.parent other]
    by_cases same : other = id
    · subst same
      rw [if_pos rfl, if_neg positive, if_pos (beq_self_eq_true other)]
      split <;> rfl
    · have apart : ¬ (id == other) = true := by simpa using Ne.symm same
      rw [if_neg same, if_neg apart, Nat.sub_zero]
  loose := by
    intro other object alone
    by_cases same : other = id
    · rw [same, detached.sibling]
    · rw [detached.parent, if_neg same] at alone
      rw [detached.loose other same alone, forest.loose other object alone]
  rooted := by
    intro other object
    obtain ⟨path, ancestry⟩ := forest.rooted other object
    by_cases member : id ∈ path
    · -- The object has become a root, so that the path ends there.
      obtain ⟨front, back, rfl⟩ := List.append_of_mem member
      have nodup := ancestry.nodup
      obtain ⟨middle, before, rfl, known, -⟩ := leads_append.mp ancestry
      refine ⟨front ++ [middle], leads_append.mpr ⟨middle, before.congr ?_, rfl, known, ?_⟩⟩
      · intro place member
        have apart : place ≠ middle :=
          (List.nodup_append.mp nodup).2.2 place member middle List.mem_cons_self
        rw [detached.parent, if_neg apart]
      · exact detached.alone
    · refine ⟨path, ancestry.congr fun place member' => ?_⟩
      have apart : place ≠ id := fun same => member (same ▸ member')
      rw [detached.parent, if_neg apart]

end Detaching

/-! ## Giving an object to a parent -/

/-- The links after an object became the first child of another. -/
def attached (links : Links) (id target : Nat) : Links :=
  ((links.set .parent id target).set .sibling id (links .child target)).set .child target id

section Attaching

variable {links : Links} {count id target : Nat}

private theorem attached_parent (links : Links) (id target other : Nat) :
    links.attached id target .parent other =
      if other = id then target else links .parent other := by
  unfold attached
  split
  · rename_i same
    simp [same]
  · rename_i apart
    simp [set_of_ne apart]

private theorem attached_sibling (links : Links) (id target other : Nat) :
    links.attached id target .sibling other =
      if other = id then links .child target else links .sibling other := by
  unfold attached
  split
  · rename_i same
    simp [same]
  · rename_i apart
    simp [set_of_ne apart]

private theorem attached_child (links : Links) (id target other : Nat) :
    links.attached id target .child other = if other = target then id else links .child other := by
  unfold attached
  split
  · rename_i same
    simp [same]
  · rename_i apart
    simp [set_of_ne apart]

/-- The object stands in front of the children of its new parent. -/
theorem Forest.children_attached (forest : links.Forest count) (object : IsObject count id)
    (holder : IsObject count target) (alone : links .parent id = 0) {parent : Nat}
    {list : List Nat} (known : IsObject count parent) (children : links.Children parent list) :
    (links.attached id target).Children parent (if parent = target then id :: list else list) := by
  have same : ∀ place ∈ list, links.attached id target .sibling place = links .sibling place := by
    intro place member
    have apart : place ≠ id := by
      rintro rfl
      have named := forest.parent_of_mem known children member
      exact Nat.ne_of_lt known.1 (alone.symm.trans named)
    rw [attached_sibling, if_neg apart]
  unfold Children
  rw [attached_child]
  split
  · rename_i own
    subst own
    refine ⟨rfl, Nat.ne_of_gt object.1, ?_⟩
    rw [attached_sibling, if_pos rfl]
    exact Leads.congr children same
  · exact Leads.congr children same

/-- An object without a parent can be given to any object that is not below it. -/
theorem Forest.attached (forest : links.Forest count) (object : IsObject count id)
    (holder : IsObject count target) (alone : links .parent id = 0)
    (outside : ¬ links.Above id target) : (links.attached id target).Forest count where
  named :=
    named_set (named_set (named_set forest.named holder.2) (forest.named .child target holder))
      object.2
  children := by
    intro parent known
    obtain ⟨list, children, counted⟩ := forest.children parent known
    refine ⟨_, forest.children_attached object holder alone known children, ?_⟩
    intro other object'
    rw [attached_parent]
    have unowned : list.count id = 0 := by
      rw [counted id object, alone, if_neg (Nat.ne_of_lt known.1)]
    by_cases same : other = id
    · subst same
      by_cases own : parent = target
      · simp [own, unowned]
      · simp [own, Ne.symm own, unowned]
    · have unchanged := counted other object'
      by_cases own : parent = target
      · subst own
        simp [same, Ne.symm same, unchanged]
      · simp [own, same, unchanged]
  loose := by
    intro other object' alone'
    have apart : other ≠ id := by
      rintro rfl
      rw [attached_parent, if_pos rfl] at alone'
      exact Nat.ne_of_gt holder.1 alone'
    rw [attached_parent, if_neg apart] at alone'
    rw [attached_sibling, if_neg apart]
    exact forest.loose other object' alone'
  rooted := by
    have keeps : ∀ {start stop path}, id ∉ path → Leads (links .parent) start path stop →
        Leads (links.attached id target .parent) start path stop := by
      intro start stop path absent leads
      refine leads.congr fun place member => ?_
      have apart : place ≠ id := fun same => absent (same ▸ member)
      rw [attached_parent, if_neg apart]
    obtain ⟨above, ancestry⟩ := forest.rooted target holder
    have absent : id ∉ above := fun member => outside ⟨above, ancestry, member⟩
    intro other object'
    obtain ⟨path, ancestry'⟩ := forest.rooted other object'
    by_cases member : id ∈ path
    · -- Above the object the path goes on with that of its new parent.
      obtain ⟨front, back, rfl⟩ := List.append_of_mem member
      have nodup := ancestry'.nodup
      obtain ⟨middle, before, rfl, known, -⟩ := leads_append.mp ancestry'
      refine ⟨front ++ middle :: above, leads_append.mpr ⟨middle, keeps ?_ before, rfl, known, ?_⟩⟩
      · intro member
        exact (List.nodup_append.mp nodup).2.2 middle member middle List.mem_cons_self rfl
      · rw [attached_parent, if_pos rfl]
        exact keeps absent ancestry
    · exact ⟨path, keeps member ancestry'⟩

/-- An object can be moved below any object that is not below it. -/
theorem Forest.attached_of_detached {between : Links} (forest : links.Forest count)
    (detached : Detached count links between id) (object : IsObject count id)
    (holder : IsObject count target) (outside : ¬ links.Above id target) :
    (between.attached id target).Forest count := by
  refine (forest.of_detached detached).attached object holder detached.alone ?_
  rintro ⟨path, ancestry, member⟩
  obtain ⟨path', ancestry'⟩ := forest.rooted target holder
  have absent : id ∉ path' := fun member => outside ⟨path', ancestry', member⟩
  have same : Leads (between .parent) target path' 0 := ancestry'.congr fun place there => by
    rw [detached.parent, if_neg fun same : place = id => absent (same ▸ there)]
  exact absent (ancestry.unique same ▸ member)

end Attaching

end Links

end StoryMachine
