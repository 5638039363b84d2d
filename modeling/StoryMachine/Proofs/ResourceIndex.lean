import StoryMachine.Resource
import StoryMachine.Proofs.FormGeometry

/-!
# The index of a resource file

An index lists resources: how many there are, and then the usage, the number and
the offset of each. It is read exactly where such a list is written, and resolved
exactly where every offset is that of a chunk. Of the resources with one usage and
number the last is kept, so that a file is accepted whose only executable is
listed repeatedly.
-/

namespace StoryMachine

namespace Chunk

variable {data : List UInt8} {chunk : Chunk} {chunks : List Chunk}

private theorem Consecutive.le_offset {offset : Int} (follow : Consecutive data offset chunks) :
    ∀ chunk ∈ chunks, offset ≤ chunk.offset := by
  induction chunks generalizing offset with
  | nil => exact List.forall_mem_nil _
  | cons first rest ih =>
      obtain ⟨-, rfl, -, follow⟩ := follow
      refine List.forall_mem_cons.mpr ⟨Int.le_refl _, fun chunk member => ?_⟩
      have behind := ih follow chunk member
      have forward := le_stop first
      omega

/-- No two chunks of a form have the same offset. -/
theorem Consecutive.find?_eq_some_iff {offset place : Int}
    (follow : Consecutive data offset chunks) :
    chunks.find? (fun chunk => chunk.offset = place) = some chunk ↔
      chunk ∈ chunks ∧ chunk.offset = place := by
  induction chunks generalizing offset with
  | nil => simp
  | cons first rest ih =>
      obtain ⟨-, -, -, follow⟩ := follow
      rw [List.find?_cons, List.mem_cons]
      by_cases here : first.offset = place
      · simp only [here, decide_true, Option.some.injEq]
        constructor
        · rintro rfl
          exact ⟨.inl rfl, here⟩
        · rintro ⟨rfl | member, same⟩
          · rfl
          · have behind := follow.le_offset chunk member
            have forward := le_stop first
            omega
      · simp only [here, decide_false]
        rw [ih follow]
        constructor
        · exact fun ⟨member, same⟩ => ⟨.inr member, same⟩
        · rintro ⟨rfl | member, same⟩
          · exact absurd same here
          · exact ⟨member, same⟩

end Chunk

namespace ResourceFile

open Chunk

/-! ## Tables with unique keys -/

section Tables

variable {κ ν : Type} [BEq κ] {p : κ → Bool}

/-- The table of pairs of which a later one with the same key replaces an earlier one. -/
def tabulate (pairs : List (κ × ν)) : List (κ × ν) :=
  pairs.foldl (fun table pair => put pair.1 pair.2 table) []

private theorem tabulate_concat (pairs : List (κ × ν)) (pair : κ × ν) :
    tabulate (pairs ++ [pair]) = put pair.1 pair.2 (tabulate pairs) := by
  unfold tabulate
  rw [List.foldl_append, List.foldl_cons, List.foldl_nil]

private theorem put_ne_nil (key : κ) (value : ν) (table : List (κ × ν)) : put key value table ≠ [] := by
  cases table with
  | nil => exact List.cons_ne_nil _ _
  | cons entry rest =>
      rw [put]
      split <;> exact List.cons_ne_nil _ _

private theorem tabulate_eq_nil_iff {pairs : List (κ × ν)} : tabulate pairs = [] ↔ pairs = [] := by
  induction pairs using List.reverseRecOn with
  | nil => simp [tabulate]
  | append_singleton pairs pair ih => simp [tabulate_concat, put_ne_nil]

variable [LawfulBEq κ]

private theorem mem_of_mem_put {key : κ} {value : ν} {table : List (κ × ν)} {entry : κ × ν}
    (member : entry ∈ put key value table) : entry = (key, value) ∨ entry ∈ table := by
  induction table with
  | nil => exact .inl (List.mem_singleton.mp member)
  | cons first rest ih =>
      obtain ⟨other, old⟩ := first
      rw [put] at member
      split at member
      · rename_i same
        rcases List.mem_cons.mp member with rfl | member
        · exact .inl (by rw [eq_of_beq same])
        · exact .inr (List.mem_cons_of_mem _ member)
      · rcases List.mem_cons.mp member with rfl | member
        · exact .inr List.mem_cons_self
        · exact (ih member).imp_right (List.mem_cons_of_mem _)

/-- What is in the table is among the pairs that it was made from. -/
theorem mem_of_mem_tabulate {pairs : List (κ × ν)} {entry : κ × ν}
    (member : entry ∈ tabulate pairs) : entry ∈ pairs := by
  induction pairs using List.reverseRecOn with
  | nil => cases member
  | append_singleton pairs pair ih =>
      rw [tabulate_concat] at member
      rw [List.mem_append, List.mem_singleton]
      exact (mem_of_mem_put member).symm.imp_left ih

/-- A search that only one key can satisfy finds the value that was put last. -/
theorem find?_put (single : ∀ left right, p left → p right → left = right) (key : κ) (value : ν)
    (table : List (κ × ν)) :
    (put key value table).find? (fun entry => p entry.1) =
      if p key then some (key, value) else table.find? (fun entry => p entry.1) := by
  induction table with
  | nil =>
      rw [put, List.find?_singleton]
      rfl
  | cons entry rest ih =>
      obtain ⟨other, old⟩ := entry
      rw [put]
      by_cases same : other = key
      · subst same
        rw [if_pos (beq_self_eq_true other), List.find?_cons, List.find?_cons]
        cases p other <;> rfl
      · rw [if_neg (by simpa using same), List.find?_cons, List.find?_cons, ih]
        dsimp only
        cases found : p other with
        | false => rfl
        | true =>
            have apart : ¬ p key = true := fun sought => same (single _ _ found sought)
            simp [apart]

/-- Of the pairs with one key the last is found. -/
theorem find?_tabulate (single : ∀ left right, p left → p right → left = right)
    (pairs : List (κ × ν)) :
    (tabulate pairs).find? (fun entry => p entry.1) =
      pairs.reverse.find? fun entry => p entry.1 := by
  induction pairs using List.reverseRecOn with
  | nil => rfl
  | append_singleton pairs pair ih =>
      rw [tabulate_concat, find?_put single, ih, List.reverse_append, List.reverse_singleton,
        List.singleton_append, List.find?_cons]
      cases p pair.1 <;> rfl

private theorem filter_put (p : κ → Bool) (key : κ) (value : ν) (table : List (κ × ν)) :
    (put key value table).filter (fun entry => p entry.1) =
      if p key then put key value (table.filter fun entry => p entry.1)
      else table.filter fun entry => p entry.1 := by
  induction table with
  | nil =>
      rw [put, List.filter_cons]
      rfl
  | cons entry rest ih =>
      obtain ⟨other, old⟩ := entry
      rw [put]
      by_cases same : other = key
      · subst same
        rw [if_pos (beq_self_eq_true other), List.filter_cons, List.filter_cons]
        dsimp only
        split
        · rw [put, if_pos (beq_self_eq_true other)]
        · rfl
      · have apart : ¬ (other == key) = true := by simpa using same
        rw [if_neg apart, List.filter_cons, List.filter_cons, ih]
        dsimp only
        split
        · split
          · rw [put, if_neg apart]
          · rfl
        · rfl

/-- The pairs with some of the keys are tabulated for themselves. -/
theorem filter_tabulate (p : κ → Bool) (pairs : List (κ × ν)) :
    (tabulate pairs).filter (fun entry => p entry.1) =
      tabulate (pairs.filter fun entry => p entry.1) := by
  induction pairs using List.reverseRecOn with
  | nil => rfl
  | append_singleton pairs pair ih =>
      rw [tabulate_concat, filter_put, ih, List.filter_append, List.filter_cons]
      cases p pair.1 with
      | false => rw [if_neg Bool.false_ne_true, if_neg Bool.false_ne_true, List.filter_nil,
          List.append_nil]
      | true => rw [if_pos rfl, if_pos rfl, List.filter_nil, tabulate_concat]

private theorem put_eq_singleton_iff {key k : κ} {value x : ν} {table : List (κ × ν)} :
    put key value table = [(k, x)] ↔
      key = k ∧ value = x ∧ (table = [] ∨ ∃ y, table = [(k, y)]) := by
  cases table with
  | nil => simp [put]
  | cons entry rest =>
      obtain ⟨other, old⟩ := entry
      rw [put]
      by_cases same : other = key
      · subst same
        simp only [beq_self_eq_true, ↓reduceIte, List.cons.injEq, Prod.mk.injEq, reduceCtorEq,
          false_or]
        grind
      · rw [if_neg (by simpa using same)]
        simp only [List.cons.injEq, put_ne_nil, and_false, reduceCtorEq, false_or, false_iff]
        grind

/-- One entry is left exactly of pairs that all have one key, and it is the last of them. -/
theorem tabulate_eq_singleton_iff {pairs : List (κ × ν)} {k : κ} {x : ν} :
    tabulate pairs = [(k, x)] ↔
      ∃ earlier, pairs = earlier ++ [(k, x)] ∧ ∀ pair ∈ earlier, pair.1 = k := by
  induction pairs using List.reverseRecOn generalizing x with
  | nil => simp [tabulate]
  | append_singleton pairs last ih =>
      rw [tabulate_concat, put_eq_singleton_iff, tabulate_eq_nil_iff]
      constructor
      · rintro ⟨rfl, rfl, rfl | ⟨y, before⟩⟩
        · exact ⟨[], rfl, List.forall_mem_nil _⟩
        · obtain ⟨front, rfl, same⟩ := ih.mp before
          refine ⟨_, rfl, fun pair member => ?_⟩
          rcases List.mem_append.mp member with member | member
          · exact same pair member
          · rw [List.mem_singleton.mp member]
      · rintro ⟨earlier, split, same⟩
        obtain ⟨rfl, rest⟩ := List.append_inj' split rfl
        cases rest
        refine ⟨rfl, rfl, ?_⟩
        cases pairs using List.reverseRecOn with
        | nil => exact .inl rfl
        | append_singleton front pair =>
            obtain ⟨other, y⟩ := pair
            obtain rfl : other = k := same (other, y) (by simp)
            exact .inr ⟨y, ih.mpr ⟨front, rfl, fun pair member => same pair (by simp [member])⟩⟩

end Tables

/-! ## Written indexes -/

/-- An entry of an index in bytes. -/
def entryBytes (entry : String × Nat × Nat) : List UInt8 :=
  nameBytes entry.1 ++ digits 4 entry.2.1 ++ digits 4 entry.2.2

/-- An index in bytes. -/
def indexBytes (entries : List (String × Nat × Nat)) : List UInt8 :=
  digits 4 entries.length ++ entries.flatMap entryBytes

/-- An entry fits its fields: four Latin-1 characters and two numbers of four bytes. -/
structure IsEntry (entry : String × Nat × Nat) : Prop where
  usage : IsName entry.1
  number : entry.2.1 < 256 ^ 4
  offset : entry.2.2 < 256 ^ 4

/-- Data is a written index of the entries, with anything behind it. -/
structure Lists (data : List UInt8) (entries : List (String × Nat × Nat)) : Prop where
  count : entries.length < 256 ^ 4
  fields : ∀ entry ∈ entries, IsEntry entry
  written : ∃ spare, data = indexBytes entries ++ spare

variable {data : List UInt8} {entry : String × Nat × Nat} {entries : List (String × Nat × Nat)}

private theorem length_entryBytes (fits : IsEntry entry) : (entryBytes entry).length = 12 := by
  simp only [entryBytes, List.length_append, length_nameBytes fits.usage, length_digits]

private theorem readEntry_entryBytes (fits : IsEntry entry) (rest : List UInt8) :
    readEntry (entryBytes entry ++ rest) = entry := by
  obtain ⟨usage, number, offset⟩ := entry
  have usageLength := length_nameBytes fits.usage
  have numberLength := length_digits 4 number
  have split : (nameBytes usage ++ digits 4 number).length = 8 := by
    rw [List.length_append, usageLength, numberLength]
  unfold readEntry entryBytes
  rw [List.append_assoc _ _ rest, List.drop_left' split,
    List.take_left' (length_digits 4 offset), List.append_assoc, List.take_left' usageLength,
    List.drop_left' usageLength, List.take_left' numberLength, latin_nameBytes fits.usage,
    number_digits_of_lt fits.number, number_digits_of_lt fits.offset]

/-- Twelve bytes are an entry. -/
theorem entryBytes_readEntry (long : 12 ≤ data.length) :
    IsEntry (readEntry data) ∧ data = entryBytes (readEntry data) ++ data.drop 12 := by
  have field (start : Nat) (inside : start + 4 ≤ 12) : ((data.drop start).take 4).length = 4 := by
    rw [List.length_take, List.length_drop]
    omega
  have first : (data.take 4).length = 4 := field 0 (by decide)
  have bounded (start : Nat) (inside : start + 4 ≤ 12) :
      number ((data.drop start).take 4) < 256 ^ 4 := by
    have small := number_lt ((data.drop start).take 4)
    rwa [field start inside] at small
  have spelled (start : Nat) (inside : start + 4 ≤ 12) :
      digits 4 (number ((data.drop start).take 4)) = (data.drop start).take 4 := by
    have back := digits_number ((data.drop start).take 4)
    rwa [field start inside] at back
  refine ⟨⟨isName_latin first, bounded 4 (by decide), bounded 8 (by decide)⟩, ?_⟩
  unfold readEntry entryBytes
  rw [nameBytes_latin, spelled 4 (by decide), spelled 8 (by decide)]
  conv_lhs => rw [← List.take_append_drop 4 data, ← List.take_append_drop 4 (data.drop 4),
    List.drop_drop, ← List.take_append_drop 4 (data.drop 8), List.drop_drop]
  simp only [List.append_assoc]

private theorem readEntries_written (fits : ∀ entry ∈ entries, IsEntry entry) (spare : List UInt8) :
    readEntries (entries.flatMap entryBytes ++ spare) entries.length = entries := by
  induction entries with
  | nil => rfl
  | cons entry rest ih =>
      have first := fits entry List.mem_cons_self
      rw [List.flatMap_cons, List.append_assoc, List.length_cons, readEntries,
        readEntry_entryBytes first, List.drop_left' (length_entryBytes first),
        ih fun other member => fits other (List.mem_cons_of_mem _ member)]

private theorem written_readEntries {count : Nat} (long : count * 12 ≤ data.length) :
    (readEntries data count).length = count ∧ (∀ entry ∈ readEntries data count, IsEntry entry) ∧
      data = (readEntries data count).flatMap entryBytes ++ data.drop (count * 12) := by
  induction count generalizing data with
  | zero => exact ⟨rfl, List.forall_mem_nil _, rfl⟩
  | succ count ih =>
      obtain ⟨first, split⟩ := entryBytes_readEntry (by omega : 12 ≤ data.length)
      have enough : count * 12 ≤ (data.drop 12).length := by
        rw [List.length_drop]
        omega
      obtain ⟨counted, fits, others⟩ := ih enough
      refine ⟨by rw [readEntries, List.length_cons, counted],
        List.forall_mem_cons.mpr ⟨first, fits⟩, ?_⟩
      have rest : (data.drop 12).drop (count * 12) = data.drop ((count + 1) * 12) := by
        rw [List.drop_drop]
        congr 1
        omega
      rw [rest] at others
      rw [readEntries, List.flatMap_cons, List.append_assoc, ← others]
      exact split

private theorem length_flatMap_entryBytes (fits : ∀ entry ∈ entries, IsEntry entry) :
    (entries.flatMap entryBytes).length = entries.length * 12 := by
  induction entries with
  | nil => rfl
  | cons entry rest ih =>
      rw [List.flatMap_cons, List.length_append, length_entryBytes (fits entry List.mem_cons_self),
        ih fun other member => fits other (List.mem_cons_of_mem _ member), List.length_cons]
      omega

/-- An index is read exactly where it is written. -/
theorem readIndex_eq_ok_iff : readIndex data = .ok entries ↔ Lists data entries := by
  unfold readIndex
  constructor
  · intro read
    split at read
    · cases read
    rename_i counted
    dsimp only at read
    split at read
    · cases read
    rename_i long
    cases read
    have four : (data.take 4).length = 4 := by
      rw [List.length_take]
      omega
    have small := number_lt (data.take 4)
    have spelled := digits_number (data.take 4)
    rw [four] at small spelled
    have enough : number (data.take 4) * 12 ≤ (data.drop 4).length := by
      rw [List.length_drop]
      omega
    obtain ⟨length, fits, written⟩ := written_readEntries enough
    refine ⟨by rwa [length], fits, (data.drop 4).drop (number (data.take 4) * 12), ?_⟩
    unfold indexBytes
    rw [length, spelled, List.append_assoc, ← written, List.take_append_drop]
  · rintro ⟨count, fits, spare, rfl⟩
    have four := length_digits 4 entries.length
    have size := length_flatMap_entryBytes fits
    have total : (indexBytes entries ++ spare).length = 4 + entries.length * 12 + spare.length := by
      unfold indexBytes
      rw [List.length_append, List.length_append, four, size]
    have start : (indexBytes entries ++ spare).take 4 = digits 4 entries.length := by
      rw [indexBytes, List.append_assoc, List.take_left' four]
    have rest : (indexBytes entries ++ spare).drop 4 = entries.flatMap entryBytes ++ spare := by
      rw [indexBytes, List.append_assoc, List.drop_left' four]
    rw [total, start, rest, number_digits_of_lt count, if_neg (by omega)]
    dsimp only
    rw [if_neg (by omega), readEntries_written fits]

/-! ## Resolving an index -/

/-- An entry of an index with the content of a chunk. -/
def entryOf (resource : Resource) : String × Nat × Nat :=
  (resource.usage, resource.number, resource.offset)

/-- The key of a resource: its usage and its number. -/
def keyOf (resource : Resource) : String × Nat :=
  (resource.usage, resource.number)

/-- A resource under its key. -/
def keyed (resource : Resource) : (String × Nat) × Resource :=
  (keyOf resource, resource)

/-- A resource stands for the chunk at its offset. -/
def StandsFor (chunks : List Chunk) (resource : Resource) : Prop :=
  ∃ chunk ∈ chunks, chunk.offset = resource.offset ∧ chunk.id = resource.chunk ∧
    chunk.data = resource.data

variable {chunks : List Chunk}

/-- An index is resolved exactly if every entry names a chunk by its offset, and each of them is
tabulated with its chunk. -/
theorem resolve_eq_ok_iff {file : List UInt8} {start : Int}
    (follow : Consecutive file start chunks) {found table : List ((String × Nat) × Resource)} :
    resolve chunks entries found = .ok table ↔
      ∃ listed : List Resource, listed.map entryOf = entries ∧
        (∀ resource ∈ listed, StandsFor chunks resource) ∧
        table = (listed.map keyed).foldl (fun table pair => put pair.1 pair.2 table) found := by
  induction entries generalizing found with
  | nil =>
      rw [resolve]
      constructor
      · rintro ⟨⟩
        exact ⟨[], rfl, List.forall_mem_nil _, rfl⟩
      · rintro ⟨listed, none, -, rfl⟩
        rw [List.map_eq_nil_iff.mp none]
        rfl
  | cons entry rest ih =>
      obtain ⟨usage, number, offset⟩ := entry
      rw [resolve]
      cases search : chunks.find? fun chunk => chunk.offset = (offset : Int) with
      | none =>
          refine ⟨fun failed => (by cases failed), ?_⟩
          rintro ⟨listed, same, stand, -⟩
          obtain ⟨resource, others, rfl, here, -⟩ := List.map_eq_cons_iff.mp same
          obtain ⟨chunk, member, place, -⟩ := stand resource List.mem_cons_self
          cases here
          rw [follow.find?_eq_some_iff.mpr ⟨member, place⟩] at search
          cases search
      | some chunk =>
          obtain ⟨member, place⟩ := follow.find?_eq_some_iff.mp search
          dsimp only
          rw [ih]
          constructor
          · rintro ⟨listed, rfl, stand, rfl⟩
            refine ⟨{ usage, number, offset, chunk := chunk.id, data := chunk.data } :: listed, rfl,
              List.forall_mem_cons.mpr ⟨⟨chunk, member, place, rfl, rfl⟩, stand⟩, rfl⟩
          · rintro ⟨listed, same, stand, rfl⟩
            obtain ⟨resource, others, rfl, here, rest⟩ := List.map_eq_cons_iff.mp same
            obtain ⟨⟨other, member', place', id, content⟩, stand⟩ := List.forall_mem_cons.mp stand
            refine ⟨others, rest, stand, ?_⟩
            cases here
            have one := follow.find?_eq_some_iff.mpr ⟨member', place'⟩
            rw [search] at one
            cases one
            rw [List.map_cons, List.foldl_cons, id, content]
            rfl

private theorem resolve_eq_error {found : List ((String × Nat) × Resource)} {failure : Failure}
    (failed : resolve chunks entries found = .error failure) : failure.HasKind .resource := by
  fun_induction resolve chunks entries found with
  | case1 => cases failed
  | case2 => exact Result.hasKind_of_fault failed
  | case3 => rename_i ih; exact ih failed

private theorem readIndex_eq_error {failure : Failure} (failed : readIndex data = .error failure) :
    failure.HasKind .resource := by
  unfold readIndex at failed
  split at failed
  · exact Result.hasKind_of_fault failed
  dsimp only at failed
  split at failed
  · exact Result.hasKind_of_fault failed
  · cases failed

/-! ## The executable -/

/-- The resource is a story of a version that is played. -/
structure IsStory (resource : Resource) : Prop where
  chunk : resource.chunk = "ZCOD"
  version : ∃ version code, resource.data = version :: code ∧ version.toNat ∈ storyVersions

private theorem findExecutable_eq_ok_iff {resources : List Resource} {executable : Resource} :
    findExecutable resources = .ok executable ↔
      resources.filter (·.usage == "Exec") = [executable] ∧ IsStory executable := by
  unfold findExecutable
  constructor
  · intro found
    split at found
    · cases found
    · rename_i only single
      split at found
      · cases found
      rename_i named
      split at found
      · cases found
      · rename_i version code content
        split at found
        · rename_i supported
          cases found
          refine ⟨single, not_not.mp named, version, code, content, ?_⟩
          exact List.contains_iff_mem.mp supported
        · cases found
    · cases found
  · rintro ⟨single, named, version, code, content, supported⟩
    rw [single]
    dsimp only
    rw [if_neg (not_not.mpr named), content]
    dsimp only
    rw [if_pos (List.contains_iff_mem.mpr supported)]

private theorem findExecutable_eq_error {resources : List Resource} {failure : Failure}
    (failed : findExecutable resources = .error failure) : failure.HasKind .resource := by
  unfold findExecutable at failed
  split at failed
  · exact Result.hasKind_of_fault failed
  · split at failed
    · exact Result.hasKind_of_fault failed
    split at failed
    · exact Result.hasKind_of_fault failed
    split at failed
    · cases failed
    · exact Result.hasKind_of_fault failed
  · exact Result.hasKind_of_fault failed

/-! ## Whole files -/

/-- The last chunk with a name. -/
def lastChunk (chunks : List Chunk) (id : String) : Option Chunk :=
  (chunks.filter (·.id == id)).getLast?

/-- A resource file is read exactly if it is a form, its last index lists chunks by their offsets,
and the resources that are kept of these have one story as their executable. -/
theorem read_eq_ok_iff {file : ResourceFile} :
    read data = .ok file ↔
      ∃ (index : Chunk) (listed : List Resource), IsForm formType data ∧
        Consecutive (formPart data) 12 file.chunks ∧ lastChunk file.chunks "RIdx" = some index ∧
        Lists index.data (listed.map entryOf) ∧
        (∀ resource ∈ listed, StandsFor file.chunks resource) ∧
        file.resources = (tabulate (listed.map keyed)).map Prod.snd ∧
        file.resources.filter (·.usage == "Exec") = [file.executable] ∧
        IsStory file.executable ∧
        file.identity = (lastChunk file.chunks "IFhd").map Chunk.data ∧
        file.loops = readLoops file.chunks := by
  unfold read
  constructor
  · intro found
    obtain ⟨chunks, formed, found⟩ := Result.bind_eq_ok found
    obtain ⟨form, follow⟩ := readForm_eq_ok_iff.mp formed
    dsimp only at found
    split at found
    · cases found
    rename_i index last
    obtain ⟨entries, indexed, found⟩ := Result.bind_eq_ok found
    obtain ⟨table, resolved, found⟩ := Result.bind_eq_ok found
    obtain ⟨executable, chosen, found⟩ := Result.bind_eq_ok found
    cases found
    obtain ⟨listed, rfl, stand, rfl⟩ := (resolve_eq_ok_iff follow).mp resolved
    obtain ⟨single, story⟩ := findExecutable_eq_ok_iff.mp chosen
    exact ⟨index, listed, form, follow, last, readIndex_eq_ok_iff.mp indexed, stand, rfl, single,
      story, rfl, rfl⟩
  · rintro ⟨index, listed, form, follow, last, lists, stand, kept, single, story, identity, loops⟩
    obtain ⟨chunks, names, repeats, resources, executable⟩ := file
    dsimp only at follow last stand kept single story identity loops
    subst kept identity loops
    unfold lastChunk at last
    rw [readForm_eq_ok_iff.mpr ⟨form, follow⟩, Result.ok_bind]
    dsimp only
    rw [last]
    dsimp only
    have resolved : resolve chunks (listed.map entryOf) [] = .ok (tabulate (listed.map keyed)) :=
      (resolve_eq_ok_iff follow).mpr ⟨listed, rfl, stand, rfl⟩
    rw [readIndex_eq_ok_iff.mpr lists, Result.ok_bind, resolved, Result.ok_bind,
      findExecutable_eq_ok_iff.mpr ⟨single, story⟩]
    rfl

/-- Nothing but a fault of the resource file comes of one that is refused. -/
theorem read_eq_error {failure : Failure} (failed : read data = .error failure) :
    failure.HasKind .resource := by
  unfold read at failed
  rcases Result.bind_eq_error failed with failed | ⟨chunks, -, failed⟩
  · exact readForm_eq_error (by decide) failed
  dsimp only at failed
  split at failed
  · exact Result.hasKind_of_fault failed
  rcases Result.bind_eq_error failed with failed | ⟨entries, -, failed⟩
  · exact readIndex_eq_error failed
  rcases Result.bind_eq_error failed with failed | ⟨table, -, failed⟩
  · exact resolve_eq_error failed
  rcases Result.bind_eq_error failed with failed | ⟨executable, -, failed⟩
  · exact findExecutable_eq_error failed
  · cases failed

end ResourceFile

end StoryMachine
