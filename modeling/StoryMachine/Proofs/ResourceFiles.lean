import Mathlib.Data.List.Find
import Mathlib.Data.List.Nodup
import StoryMachine.Proofs.ResourceIndex

/-!
# Resource files

A file whose index names its chunks by where they stand is read, and every
resource is found with the chunk at its offset. Any file at all is refused with a
fault of the resource file, or its index names chunks only and has one executable,
a story. That executable may be listed more than once: of the entries with its
number the last one counts.
-/

namespace StoryMachine

namespace ResourceFile

open Chunk

variable {data : List UInt8} {chunks : List Chunk} {listed earlier : List Resource}
  {executable : Resource}

/-! ## Which resources are kept -/

/-- A resource that is kept stands under its own key. -/
theorem eq_keyed_of_mem {entry : (String × Nat) × Resource}
    (member : entry ∈ tabulate (listed.map keyed)) : entry = keyed entry.2 := by
  obtain ⟨resource, -, rfl⟩ := List.mem_map.mp (mem_of_mem_tabulate member)
  rfl

private theorem usage_of_mem_executables {resource : Resource}
    (member : resource ∈ listed.filter (·.usage == "Exec")) : resource.usage = "Exec" :=
  eq_of_beq (List.mem_filter.mp member).2

/-- One executable is kept exactly if all that are listed have its number, and it is the last of
them. -/
theorem filter_kept_iff :
    ((tabulate (listed.map keyed)).map Prod.snd).filter (·.usage == "Exec") = [executable] ↔
      ∃ earlier, listed.filter (·.usage == "Exec") = earlier ++ [executable] ∧
        ∀ resource ∈ earlier, resource.number = executable.number := by
  -- The usage is part of the key, so the executables are tabulated for themselves.
  have kept : ((tabulate (listed.map keyed)).map Prod.snd).filter (·.usage == "Exec") =
      (tabulate ((listed.filter (·.usage == "Exec")).map keyed)).map Prod.snd := by
    have alike : ∀ entry ∈ tabulate (listed.map keyed),
        (entry.2.usage == "Exec") = (entry.1.1 == "Exec") := by
      intro entry member
      rw [eq_keyed_of_mem member]
      rfl
    rw [List.filter_map]
    change ((tabulate (listed.map keyed)).filter (·.2.usage == "Exec")).map Prod.snd = _
    rw [List.filter_congr alike, filter_tabulate (fun key : String × Nat => key.1 == "Exec"),
      List.filter_map]
    rfl
  have usage : ∀ resource ∈ listed.filter (·.usage == "Exec"), resource.usage = "Exec" :=
    fun _ => usage_of_mem_executables
  rw [kept]
  generalize listed.filter (·.usage == "Exec") = executables at usage ⊢
  constructor
  · intro one
    obtain ⟨entry, single, rfl⟩ := List.map_eq_singleton_iff.mp one
    obtain ⟨key, resource⟩ := entry
    obtain ⟨front, split, same⟩ := tabulate_eq_singleton_iff.mp single
    obtain ⟨earlier, last, rfl, rfl, only⟩ := List.map_eq_append_iff.mp split
    obtain ⟨other, rfl, this⟩ := List.map_eq_singleton_iff.mp only
    cases this
    refine ⟨earlier, rfl, fun resource member => ?_⟩
    exact congrArg Prod.snd (same _ (List.mem_map_of_mem member))
  · rintro ⟨earlier, rfl, same⟩
    have last := usage executable (by simp)
    have single : tabulate ((earlier ++ [executable]).map keyed) = [keyed executable] := by
      refine tabulate_eq_singleton_iff.mpr ⟨earlier.map keyed, by simp; rfl, fun pair member => ?_⟩
      obtain ⟨resource, present, rfl⟩ := List.mem_map.mp member
      have first := usage resource (by simp [present])
      exact Prod.ext (first.trans last.symm) (same resource present)
    rw [single]
    rfl

/-- Of the listed resources with one usage and number the last is found. -/
theorem find?_eq (file : ResourceFile)
    (kept : file.resources = (tabulate (listed.map keyed)).map Prod.snd) (usage : String)
    (number : Int) :
    file.find? usage number =
      listed.reverse.find? fun resource =>
        resource.usage == usage && (resource.number : Int) = number := by
  -- A search by usage and number is a search by key, which only one key can satisfy.
  let sought : String × Nat → Bool := fun key => key.1 == usage && (key.2 : Int) = number
  have single : ∀ left right, sought left → sought right → left = right := by
    simp only [sought, Bool.and_eq_true, beq_iff_eq, decide_eq_true_eq]
    rintro ⟨leftUsage, leftNumber⟩ ⟨rightUsage, rightNumber⟩ ⟨rfl, left⟩ ⟨rfl, right⟩
    exact Prod.ext rfl (by omega)
  have alike : ∀ entry ∈ tabulate (listed.map keyed),
      (entry.2.usage == usage && (entry.2.number : Int) = number) = sought entry.1 := by
    intro entry member
    rw [eq_keyed_of_mem member]
    rfl
  unfold ResourceFile.find?
  rw [kept, List.find?_map]
  change ((tabulate (listed.map keyed)).find? fun entry =>
    entry.2.usage == usage && (entry.2.number : Int) = number).map Prod.snd = _
  rw [List.find?_congr alike, find?_tabulate single, ← List.map_reverse, List.find?_map,
    Option.map_map]
  exact Option.map_id'

/-! ## Which files are accepted -/

/-- The file is a form of these chunks, its last index lists these resources by the offsets of
their chunks, and the executables among them have one number, the last of them being a story. -/
structure Accepts (data : List UInt8) (chunks : List Chunk) (listed earlier : List Resource)
    (executable : Resource) : Prop where
  form : IsForm formType data
  body : Consecutive (formPart data) 12 chunks
  index : ∃ index, lastChunk chunks "RIdx" = some index ∧ Lists index.data (listed.map entryOf)
  stand : ∀ resource ∈ listed, StandsFor chunks resource
  executables : listed.filter (·.usage == "Exec") = earlier ++ [executable]
  repeated : ∀ resource ∈ earlier, resource.number = executable.number
  story : IsStory executable

private theorem accepts_of_read {file : ResourceFile} (found : read data = .ok file) :
    ∃ listed earlier, Accepts data file.chunks listed earlier file.executable := by
  obtain ⟨index, listed, form, follow, last, lists, stand, kept, single, story, -, -⟩ :=
    read_eq_ok_iff.mp found
  rw [kept] at single
  obtain ⟨earlier, executables, repeated⟩ := filter_kept_iff.mp single
  exact ⟨listed, earlier, form, follow, ⟨index, last, lists⟩, stand, executables, repeated, story⟩

private theorem Accepts.read (accepts : Accepts data chunks listed earlier executable) :
    read data = .ok {
      chunks, executable
      identity := (lastChunk chunks "IFhd").map Chunk.data
      loops := readLoops chunks
      resources := (tabulate (listed.map keyed)).map Prod.snd } := by
  obtain ⟨index, last, lists⟩ := accepts.index
  refine read_eq_ok_iff.mpr ⟨index, listed, accepts.form, accepts.body, last, lists,
    accepts.stand, rfl, ?_, accepts.story, rfl, rfl⟩
  exact filter_kept_iff.mpr ⟨earlier, accepts.executables, accepts.repeated⟩

/-- Executables with different keys are not more than one. -/
theorem Accepts.earlier_eq_nil (accepts : Accepts data chunks listed earlier executable)
    (distinct : (listed.map keyOf).Nodup) : earlier = [] := by
  have nodup := distinct.sublist
    ((List.filter_sublist (p := (·.usage == "Exec")) (l := listed)).map keyOf)
  have usage : ∀ resource ∈ listed.filter (·.usage == "Exec"), resource.usage = "Exec" :=
    fun _ => usage_of_mem_executables
  rw [accepts.executables] at nodup usage
  cases before : earlier with
  | nil => rfl
  | cons first rest =>
      have same : keyOf first = keyOf executable := by
        unfold keyOf
        rw [usage first (by simp [before]), usage executable (by simp),
          accepts.repeated first (by simp [before])]
      rw [before] at nodup
      simp [same] at nodup

/-! ## Finding resources -/

/-- A piece is written at an offset of the form of the pieces. -/
def WrittenAt (pieces : List (String × List UInt8)) (offset : Nat)
    (piece : String × List UInt8) : Prop :=
  ∃ before behind, pieces = before ++ piece :: behind ∧
    offset = 12 + (before.flatMap bytesOf).length

private theorem stop_eq {chunk : Chunk} (name : IsName chunk.id) :
    chunk.stop = chunk.offset + (bytesOf (chunk.id, chunk.data)).length := by
  have length : (bytesOf (chunk.id, chunk.data)).length =
      8 + chunk.data.length + (padding chunk.data).length := length_bytesOf name
  unfold Chunk.stop
  omega

/-- The records of pieces stand where the pieces are written. -/
theorem exists_chunk_of_split {start : Int} {before behind : List (String × List UInt8)}
    {piece : String × List UInt8} (follow : Consecutive data start chunks)
    (same : chunks.map (fun chunk => (chunk.id, chunk.data)) = before ++ piece :: behind) :
    ∃ chunk ∈ chunks, chunk.offset = start + (before.flatMap bytesOf).length ∧
      (chunk.id, chunk.data) = piece := by
  induction before generalizing start chunks with
  | nil =>
      obtain ⟨chunk, rest, rfl, here, -⟩ := List.map_eq_cons_iff.mp same
      obtain ⟨-, place, -⟩ := follow
      exact ⟨chunk, List.mem_cons_self, by simpa using place, here⟩
  | cons first before ih =>
      obtain ⟨chunk, rest, rfl, here, same⟩ := List.map_eq_cons_iff.mp same
      obtain ⟨-, rfl, stands, follow⟩ := follow
      obtain ⟨found, member, place, named⟩ := ih follow same
      refine ⟨found, List.mem_cons_of_mem _ member, ?_, named⟩
      rw [place, stop_eq stands.isName, here, List.flatMap_cons, List.length_append]
      omega

private theorem exists_chunk {pieces : List (String × List UInt8)} {offset : Nat}
    {piece : String × List UInt8} (follow : Consecutive data 12 chunks)
    (same : chunks.map (fun chunk => (chunk.id, chunk.data)) = pieces)
    (written : WrittenAt pieces offset piece) :
    ∃ chunk ∈ chunks, chunk.offset = offset ∧ (chunk.id, chunk.data) = piece := by
  obtain ⟨before, behind, rfl, rfl⟩ := written
  obtain ⟨chunk, member, place, named⟩ := exists_chunk_of_split follow same
  exact ⟨chunk, member, by rw [place]; omega, named⟩

/-- Entries that name chunks by their offsets list resources. -/
theorem exists_listed {entries : List (String × Nat × Nat)}
    (present : ∀ entry ∈ entries, ∃ chunk ∈ chunks, chunk.offset = entry.2.2) :
    ∃ listed : List Resource, listed.map entryOf = entries ∧
      ∀ resource ∈ listed, StandsFor chunks resource := by
  induction entries with
  | nil => exact ⟨[], rfl, List.forall_mem_nil _⟩
  | cons entry rest ih =>
      obtain ⟨⟨chunk, member, place⟩, others⟩ := List.forall_mem_cons.mp present
      obtain ⟨listed, rfl, stand⟩ := ih others
      obtain ⟨usage, number, offset⟩ := entry
      exact ⟨{ usage, number, offset, chunk := chunk.id, data := chunk.data } :: listed, rfl,
        List.forall_mem_cons.mpr ⟨⟨chunk, member, place, rfl, rfl⟩, stand⟩⟩

/-- A resource is the chunk that was written at its offset. -/
theorem StandsFor.eq_of_writtenAt {pieces : List (String × List UInt8)} {resource : Resource}
    {piece : String × List UInt8} (stands : StandsFor chunks resource)
    (follow : Consecutive data 12 chunks)
    (same : chunks.map (fun chunk => (chunk.id, chunk.data)) = pieces)
    (written : WrittenAt pieces resource.offset piece) :
    resource.chunk = piece.1 ∧ resource.data = piece.2 := by
  obtain ⟨chunk, member, place, id, content⟩ := stands
  obtain ⟨other, member', place', rfl⟩ := exists_chunk follow same written
  -- No two chunks have one offset.
  have one := follow.find?_eq_some_iff.mpr ⟨member, place⟩
  rw [follow.find?_eq_some_iff.mpr ⟨member', place'⟩] at one
  cases one
  exact ⟨id.symm, content.symm⟩

/-- The pair of numbers at an index of a table of pairs. -/
def pairAt (table : List UInt8) (index : Nat) : Nat × Nat :=
  (number ((table.drop (8 * index)).take 4), number ((table.drop (8 * index + 4)).take 4))

/-- All pairs of numbers of a table, less an incomplete one at its end. -/
def pairsOf (table : List UInt8) : List (Nat × Nat) :=
  (List.range (table.length / 8)).map (pairAt table)

private theorem numberPairs_eq (table : List UInt8) : numberPairs table = pairsOf table := by
  induction table using numberPairs.induct with
  | case1 table enough ih =>
      have count : table.length / 8 = (table.drop 8).length / 8 + 1 := by
        rw [List.length_drop]
        omega
      rw [numberPairs, dif_pos enough, ih, pairsOf, pairsOf, count, List.range_succ_eq_map,
        List.map_cons, List.map_map]
      refine congrArg _ (List.map_congr_left fun index _ => ?_)
      have first : 8 * index + 8 = 8 * (index + 1) := by omega
      have second : 8 * index + 4 + 8 = 8 * (index + 1) + 4 := by omega
      simp only [pairAt, List.drop_drop, Function.comp_apply, Nat.succ_eq_add_one,
        Nat.add_comm 8, first, second]
  | case2 table short =>
      have none : table.length / 8 = 0 := by omega
      rw [numberPairs, dif_neg short, pairsOf, none]
      rfl

/-- The pairs of all loop chunks, in the order of the file. -/
def loopPairs (pieces : List (String × List UInt8)) : List (Nat × Nat) :=
  (pieces.filter (·.1 == "Loop")).flatMap fun piece => pairsOf piece.2

private theorem readLoops_eq {pieces : List (String × List UInt8)}
    (same : chunks.map (fun chunk => (chunk.id, chunk.data)) = pieces) :
    readLoops chunks = tabulate (loopPairs pieces) := by
  subst same
  unfold readLoops tabulate loopPairs
  rw [List.filter_map, List.flatMap_map]
  simp only [numberPairs_eq]
  rfl

/-- Of the repeats of a sound the last in the file count. -/
theorem repeats?_eq {file : ResourceFile} {pairs : List (Nat × Nat)}
    (loops : file.loops = tabulate pairs) (number : Int) :
    file.repeats? number =
      (pairs.reverse.find? fun pair => (pair.1 : Int) = number).map Prod.snd := by
  unfold repeats?
  rw [loops, find?_tabulate (p := fun key : Nat => (key : Int) = number)]
  intro left right first second
  have first' : (left : Int) = number := of_decide_eq_true first
  have second' : (right : Int) = number := of_decide_eq_true second
  omega

/-- Chunks of a resource file that is well made: the one index lists entries with different keys by
the offsets of chunks, and one of them is the executable, a story. -/
structure IsLibrary (pieces : List (String × List UInt8)) (entries : List (String × Nat × Nat)) :
    Prop where
  names : ∀ piece ∈ pieces, IsName piece.1
  size : formSize pieces < 2 ^ 32
  index : ∃ index, pieces.filter (·.1 == "RIdx") = [("RIdx", index)] ∧ Lists index entries
  distinct : (entries.map fun entry => (entry.1, entry.2.1)).Nodup
  written : ∀ entry ∈ entries, ∃ piece, WrittenAt pieces entry.2.2 piece
  executable : ∃ number offset version code,
    entries.filter (·.1 == "Exec") = [("Exec", number, offset)] ∧
      WrittenAt pieces offset ("ZCOD", version :: code) ∧ version.toNat ∈ storyVersions

variable {pieces : List (String × List UInt8)} {entries : List (String × Nat × Nat)}

/-- A well made file is accepted with the resources of its entries. -/
theorem IsLibrary.accepts (library : IsLibrary pieces entries) :
    ∃ chunks listed executable, chunks.map (fun chunk => (chunk.id, chunk.data)) = pieces ∧
      listed.map entryOf = entries ∧
      Accepts (formBytes formType pieces) chunks listed [] executable := by
  have typed : IsName formType := by decide
  obtain ⟨chunks, found, same⟩ :=
    readForm_formBytes .resources typed library.names library.size
  obtain ⟨form, follow⟩ := readForm_eq_ok_iff.mp found
  have named : ∀ entry ∈ entries, ∃ chunk ∈ chunks, chunk.offset = entry.2.2 := by
    intro entry member
    obtain ⟨piece, written⟩ := library.written entry member
    obtain ⟨chunk, present, place, -⟩ := exists_chunk follow same written
    exact ⟨chunk, present, place⟩
  obtain ⟨listed, rfl, stand⟩ := exists_listed named
  obtain ⟨number, offset, version, code, single, written, supported⟩ := library.executable
  rw [List.filter_map] at single
  obtain ⟨executable, only, entry⟩ := List.map_eq_singleton_iff.mp single
  have member : executable ∈ listed.filter (·.usage == "Exec") := by
    change listed.filter (·.usage == "Exec") = [executable] at only
    rw [only]
    exact List.mem_singleton.mpr rfl
  obtain rfl : executable.offset = offset := congrArg (·.2.2) entry
  obtain ⟨chunk, content⟩ :=
    (stand executable (List.mem_filter.mp member).1).eq_of_writtenAt follow same written
  obtain ⟨index, indexed, lists⟩ := library.index
  refine ⟨chunks, listed, executable, same, rfl, form, follow, ?_, stand, only,
    List.forall_mem_nil _, chunk, version, code, content, supported⟩
  rw [← same, List.filter_map] at indexed
  obtain ⟨record, one, this⟩ := List.map_eq_singleton_iff.mp indexed
  change chunks.filter (·.id == "RIdx") = [record] at one
  refine ⟨record, ?_, ?_⟩
  · unfold lastChunk
    rw [one]
    rfl
  · have content : record.data = index := congrArg Prod.snd this
    rwa [content]

/-- The keys of resources are those of their entries. -/
theorem nodup_keyOf
    (distinct : ((listed.map entryOf).map fun entry => (entry.1, entry.2.1)).Nodup) :
    (listed.map keyOf).Nodup := by
  rwa [List.map_map] at distinct

/-- A listed resource is the only one with its key. -/
theorem find?_listed {resource : Resource} (distinct : (listed.map keyOf).Nodup)
    (present : resource ∈ listed) :
    listed.reverse.find? (fun other =>
      other.usage == resource.usage && (other.number : Int) = resource.number) =
        some resource := by
  have turned : (listed.reverse.map keyOf).Nodup := by
    rwa [List.map_reverse, List.nodup_reverse]
  refine find?_eq_some_of_nodup turned (List.mem_reverse.mpr present) fun other => ?_
  simp only [Bool.and_eq_true, beq_iff_eq, decide_eq_true_eq, Int.natCast_inj, keyOf,
    Prod.mk.injEq]

/-- A well made resource file is written, and read with every resource under its usage and number:
the name and the data of the chunk that was written at its offset. Nothing else is found, the
executable is the story, and a sound repeats as the last pair for it in the loop chunks says. -/
theorem resources_found (library : IsLibrary pieces entries) :
    ∃ data file, writeForm formType pieces = .ok data ∧ read data = .ok file ∧
      (∀ entry ∈ entries, ∀ piece, WrittenAt pieces entry.2.2 piece →
        file.find? entry.1 entry.2.1 = some {
          usage := entry.1, number := entry.2.1, offset := entry.2.2
          chunk := piece.1, data := piece.2 }) ∧
      (∀ usage (number : Int),
        (∀ entry ∈ entries, ¬ (entry.1 = usage ∧ (entry.2.1 : Int) = number)) →
          file.find? usage number = none) ∧
      (∀ number offset story, ("Exec", number, offset) ∈ entries →
        WrittenAt pieces offset ("ZCOD", story) → file.executable.data = story) ∧
      ∀ number : Int, file.repeats? number =
        ((loopPairs pieces).reverse.find? fun pair => (pair.1 : Int) = number).map Prod.snd := by
  obtain ⟨chunks, listed, executable, same, rfl, accepts⟩ := library.accepts
  have distinct := nodup_keyOf library.distinct
  refine ⟨_, _, writeForm_of_isName (by decide) library.names library.size, accepts.read,
    ?_, ?_, ?_, ?_⟩
  · intro entry member piece written
    obtain ⟨resource, present, rfl⟩ := List.mem_map.mp member
    obtain ⟨chunk, content⟩ :=
      (accepts.stand resource present).eq_of_writtenAt accepts.body same written
    rw [find?_eq _ rfl, ← chunk, ← content]
    exact find?_listed distinct present
  · intro usage number absent
    rw [find?_eq _ rfl, List.find?_eq_none]
    intro resource member
    have apart := absent (entryOf resource) (List.mem_map_of_mem (List.mem_reverse.mp member))
    simpa [entryOf] using apart
  · intro number offset story member written
    obtain ⟨resource, present, entry⟩ := List.mem_map.mp member
    have usage : resource.usage = "Exec" := congrArg Prod.fst entry
    have only : resource ∈ listed.filter (·.usage == "Exec") :=
      List.mem_filter.mpr ⟨present, by simp [usage]⟩
    rw [accepts.executables, List.nil_append, List.mem_singleton] at only
    obtain rfl : resource.offset = offset := congrArg (·.2.2) entry
    rw [← only]
    exact ((accepts.stand resource present).eq_of_writtenAt accepts.body same written).2
  · exact repeats?_eq (readLoops_eq same)

/-- The entries of a sound and of a story. -/
def sampleEntries : List (String × Nat × Nat) :=
  [("Snd ", 3, 72), ("Exec", 0, 84)]

/-- A resource file in which the repeats of its sound are given twice. -/
def sampleLibrary : List (String × List UInt8) :=
  [("RIdx", indexBytes sampleEntries),
    ("Loop", digits 4 3 ++ digits 4 2 ++ digits 4 3 ++ digits 4 5),
    ("OGGV", [1, 2, 3]), ("ZCOD", [3, 9])]

private theorem isLibrary_sample : IsLibrary sampleLibrary sampleEntries where
  names := by decide
  size := by decide
  index := by
    refine ⟨indexBytes sampleEntries, by decide, by decide, ?_, [], (List.append_nil _).symm⟩
    simp only [sampleEntries, List.forall_mem_cons, List.not_mem_nil, false_implies, forall_const,
      and_true]
    exact ⟨⟨by decide, by decide, by decide⟩, by decide, by decide, by decide⟩
  distinct := by decide
  written := by
    simp only [sampleEntries, List.forall_mem_cons, List.not_mem_nil, false_implies, forall_const,
      and_true]
    exact ⟨⟨_, sampleLibrary.take 2, sampleLibrary.drop 3, rfl, by decide⟩,
      _, sampleLibrary.take 3, [], rfl, by decide⟩
  executable :=
    ⟨0, 84, 3, [9], by decide, ⟨sampleLibrary.take 3, [], rfl, by decide⟩, by decide⟩

/-- The sound of the sample and its story are found, and the later repeats count. -/
theorem resources_found_sample :
    ∃ data file, writeForm formType sampleLibrary = .ok data ∧ read data = .ok file ∧
      file.find? "Snd " 3 = some {
        usage := "Snd ", number := 3, offset := 72, chunk := "OGGV", data := [1, 2, 3] } ∧
      file.find? "Pict" 3 = none ∧ file.executable.data = [3, 9] ∧
      file.repeats? 3 = some 5 ∧ file.repeats? 4 = none := by
  obtain ⟨data, file, written, found, present, absent, story, repeats⟩ :=
    resources_found isLibrary_sample
  refine ⟨data, file, written, found, ?_, absent "Pict" 3 (by decide), ?_, ?_, ?_⟩
  · exact present ("Snd ", 3, 72) (by decide) ("OGGV", [1, 2, 3])
      ⟨sampleLibrary.take 2, sampleLibrary.drop 3, rfl, by decide⟩
  · exact story 0 84 [3, 9] (by decide) ⟨sampleLibrary.take 3, [], rfl, by decide⟩
  · rw [repeats]
    decide +kernel
  · rw [repeats]
    decide +kernel

/-! ## Accepted and refused files -/

/-- Any data is refused with a fault of the resource file or read. It is read exactly if it is a
form whose last index names chunks of the form only, the executables in it have one number, and the
last of them is a story of a version that is played; if no usage and number is listed twice, the
index has exactly one executable. -/
theorem resource_files_accepted (data : List UInt8) :
    ((∃ fault, fault.kind = .resource ∧ read data = .error (.fault fault)) ∨
      ∃ file, read data = .ok file) ∧
    (∀ chunks executable,
      (∃ file, read data = .ok file ∧ file.chunks = chunks ∧ file.executable = executable) ↔
        ∃ listed earlier, Accepts data chunks listed earlier executable) ∧
    ∀ chunks listed earlier executable, Accepts data chunks listed earlier executable →
      (listed.map keyOf).Nodup → listed.filter (·.usage == "Exec") = [executable] := by
  refine ⟨?_, fun chunks executable => ⟨?_, ?_⟩, ?_⟩
  · cases outcome : read data with
    | error failure =>
        obtain ⟨fault, kind, rfl⟩ := read_eq_error outcome
        exact .inl ⟨fault, kind, rfl⟩
    | ok file => exact .inr ⟨file, rfl⟩
  · rintro ⟨file, found, rfl, rfl⟩
    exact accepts_of_read found
  · rintro ⟨listed, earlier, accepts⟩
    exact ⟨_, accepts.read, rfl, rfl⟩
  · intro chunks listed earlier executable accepts distinct
    rw [accepts.executables, accepts.earlier_eq_nil distinct, List.nil_append]

/-- The sample is accepted, and the story is the one executable that its index lists. -/
theorem resource_files_accepted_sample :
    ∃ chunks listed executable,
      Accepts (formBytes formType sampleLibrary) chunks listed [] executable ∧
      (listed.map keyOf).Nodup ∧ listed.filter (·.usage == "Exec") = [executable] ∧
      ∃ file, read (formBytes formType sampleLibrary) = .ok file ∧ file.chunks = chunks ∧
        file.executable = executable := by
  obtain ⟨chunks, listed, executable, -, entries, accepts⟩ := isLibrary_sample.accepts
  have distinct : (listed.map keyOf).Nodup := by
    apply nodup_keyOf
    rw [entries]
    exact isLibrary_sample.distinct
  obtain ⟨-, exactly, single⟩ := resource_files_accepted (formBytes formType sampleLibrary)
  exact ⟨chunks, listed, executable, accepts, distinct, single _ _ _ _ accepts distinct,
    (exactly _ _).mpr ⟨_, _, accepts⟩⟩

/-- Two entries that list one story as the executable of number zero. -/
def twiceListed : List (String × Nat × Nat) :=
  [("Exec", 0, 48), ("Exec", 0, 48)]

/-- A file can be accepted although its index lists two executables. -/
theorem not_forall_one_executable :
    ¬ ∀ (data : List UInt8) (file : ResourceFile) (index : Chunk)
        (entries : List (String × Nat × Nat)),
        read data = .ok file → lastChunk file.chunks "RIdx" = some index →
        readIndex index.data = .ok entries →
        (entries.filter (·.1 == "Exec")).length = 1 := by
  intro one
  have found : read (formBytes formType [("RIdx", indexBytes twiceListed), ("ZCOD", [3])]) =
      .ok {
        chunks := [{ id := "RIdx", data := indexBytes twiceListed, offset := 12 },
          { id := "ZCOD", data := [3], offset := 48 }]
        identity := none
        loops := []
        resources :=
          [{ usage := "Exec", number := 0, offset := 48, chunk := "ZCOD", data := [3] }]
        executable :=
          { usage := "Exec", number := 0, offset := 48, chunk := "ZCOD", data := [3] } } := by
    decide +kernel
  have listed : readIndex (indexBytes twiceListed) = .ok twiceListed := by
    decide +kernel
  exact absurd (one _ _ _ _ found rfl listed) (by decide)

end ResourceFile

end StoryMachine
