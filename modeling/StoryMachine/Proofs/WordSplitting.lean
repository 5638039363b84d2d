import Mathlib.Data.List.Sort
import StoryMachine.Dictionary

/-!
# Splitting text into words

The tokens of a text are its separators, each by itself, and its words, the longest
runs of other codes that are not spaces. They stand in the text in order, side by
side or apart, and hold every code that is not a space exactly once. Tokens of
neighbouring parts of a text are put together to those of both.
-/

namespace StoryMachine

namespace Dictionary

/-- A code that is among the separators. -/
def IsSeparator (separators : List Nat) (code : Int) : Prop :=
  ∃ separator ∈ separators, (separator : Int) = code

/-- A code that no word goes on over. -/
def EndsWord (separators : List Nat) (code : Int) : Prop :=
  code = 0x20 ∨ IsSeparator separators code

/-- A word at a place in a text: a run of codes without spaces and separators that cannot be made
longer at either end. -/
structure IsWord (separators : List Nat) (chars : List Int) (start : Nat) (word : List Int) :
    Prop where
  nonempty : word ≠ []
  plain : ∀ code ∈ word, ¬ EndsWord separators code
  before : ∀ (place : Nat) (code : Int), place + 1 = start → chars[place]? = some code →
    EndsWord separators code
  after : ∀ code : Int, chars[start + word.length]? = some code → EndsWord separators code

/-- The tokens of the part of a text from one place up to another: they stand there in order, they
cover what is not a space, and they are separators by themselves and words. -/
structure Splits (separators : List Nat) (chars : List Int) (low high : Nat)
    (tokens : List Token) : Prop where
  ordered : tokens.Pairwise fun first second =>
    first.1 < second.1 ∧ first.1 + first.2.length ≤ second.1
  within : ∀ token ∈ tokens, low ≤ token.1 ∧ token.1 + token.2.length ≤ high
  stands : ∀ token ∈ tokens, token.2 = (chars.drop token.1).take token.2.length
  covers : ∀ (place : Nat) (code : Int), low ≤ place → place < high → chars[place]? = some code →
    ((∃ token ∈ tokens, token.1 ≤ place ∧ place < token.1 + token.2.length) ↔ code ≠ 0x20)
  alone : ∀ (place : Nat) (code : Int), low ≤ place → place < high → chars[place]? = some code →
    code ≠ 0x20 → IsSeparator separators code → (place, [code]) ∈ tokens
  kinds : ∀ token ∈ tokens,
    (∃ code, token.2 = [code] ∧ code ≠ 0x20 ∧ IsSeparator separators code) ∨
      IsWord separators chars token.1 token.2

variable {separators : List Nat} {chars : List Int} {low middle high start index : Nat}
  {front back : List Token} {word rest : List Int} {code : Int}

/-- What stands at a place of a text holds the codes of the text from there on. -/
theorem mem_of_stands (stands : word = (chars.drop start).take word.length) {place : Nat}
    (least : start ≤ place) (most : place < start + word.length)
    (read : chars[place]? = some code) : code ∈ word := by
  rw [stands]
  refine List.mem_of_getElem? (i := place - start) ?_
  rw [List.getElem?_take_of_lt (by omega), List.getElem?_drop]
  rwa [Nat.add_sub_cancel' least]

namespace Splits

/-- A token has at least one character. -/
theorem length_pos (splits : Splits separators chars low high front) {token : Token}
    (member : token ∈ front) : 0 < token.2.length := by
  rcases splits.kinds token member with ⟨code, alone, -, -⟩ | isWord
  · rw [alone]
    exact Nat.one_pos
  · exact List.length_pos_iff.mpr isWord.nonempty

/-- The tokens of two parts that meet. -/
theorem append (left : Splits separators chars low middle front)
    (right : Splits separators chars middle high back) (first : low ≤ middle)
    (second : middle ≤ high) : Splits separators chars low high (front ++ back) where
  ordered := by
    refine List.pairwise_append.mpr ⟨left.ordered, right.ordered, ?_⟩
    intro token before other after
    have positive := left.length_pos before
    have ends := (left.within token before).2
    have begins := (right.within other after).1
    omega
  within := by
    intro token member
    rcases List.mem_append.mp member with before | after
    · have inside := left.within token before
      omega
    · have inside := right.within token after
      omega
  stands := by
    intro token member
    rcases List.mem_append.mp member with before | after
    · exact left.stands token before
    · exact right.stands token after
  covers := by
    intro place code least most read
    by_cases earlier : place < middle
    · rw [← left.covers place code least earlier read]
      constructor
      · rintro ⟨token, member, begins, ends⟩
        rcases List.mem_append.mp member with before | after
        · exact ⟨token, before, begins, ends⟩
        · have inside := right.within token after
          omega
      · rintro ⟨token, before, covered⟩
        exact ⟨token, List.mem_append_left _ before, covered⟩
    · rw [← right.covers place code (Nat.le_of_not_lt earlier) most read]
      constructor
      · rintro ⟨token, member, begins, ends⟩
        rcases List.mem_append.mp member with before | after
        · have inside := left.within token before
          omega
        · exact ⟨token, after, begins, ends⟩
      · rintro ⟨token, after, covered⟩
        exact ⟨token, List.mem_append_right _ after, covered⟩
  alone := by
    intro place code least most read printed separates
    by_cases earlier : place < middle
    · exact List.mem_append_left _ (left.alone place code least earlier read printed separates)
    · exact List.mem_append_right _
        (right.alone place code (Nat.le_of_not_lt earlier) most read printed separates)
  kinds := by
    intro token member
    rcases List.mem_append.mp member with before | after
    · exact left.kinds token before
    · exact right.kinds token after

/-- No part has no tokens. -/
theorem nil (place : Nat) : Splits separators chars place place [] where
  ordered := .nil
  within := nofun
  stands := nofun
  covers := fun _ _ least most => absurd (Nat.lt_of_le_of_lt least most) (Nat.lt_irrefl place)
  alone := fun _ _ least most => absurd (Nat.lt_of_le_of_lt least most) (Nat.lt_irrefl place)
  kinds := nofun

/-- A space has no token. -/
theorem space (read : chars[index]? = some 0x20) :
    Splits separators chars index (index + 1) [] where
  ordered := .nil
  within := nofun
  stands := nofun
  covers := by
    intro place code least most found
    obtain rfl : place = index := by omega
    obtain rfl : code = 0x20 := Option.some.inj (found.symm.trans read)
    simp
  alone := by
    intro place code least most found printed
    obtain rfl : place = index := by omega
    exact absurd (Option.some.inj (found.symm.trans read)) printed
  kinds := nofun

/-- A separator is a token by itself. -/
theorem separator (read : chars[index]? = some code) (printed : code ≠ 0x20)
    (separates : IsSeparator separators code) :
    Splits separators chars index (index + 1) [(index, [code])] where
  ordered := List.pairwise_singleton _ _
  within := by
    rintro token member
    rw [List.mem_singleton.mp member]
    exact ⟨Nat.le_refl _, Nat.le_refl _⟩
  stands := by
    intro token member
    rw [List.mem_singleton.mp member]
    obtain ⟨inside, rfl⟩ := List.getElem?_eq_some_iff.mp read
    rw [List.drop_eq_getElem_cons inside]
    rfl
  covers := by
    intro place other least most found
    obtain rfl : place = index := by omega
    obtain rfl : other = code := Option.some.inj (found.symm.trans read)
    exact ⟨fun _ => printed, fun _ => ⟨_, List.mem_singleton_self _, least, most⟩⟩
  alone := by
    intro place other least most found _ _
    obtain rfl : place = index := by omega
    obtain rfl : other = code := Option.some.inj (found.symm.trans read)
    exact List.mem_singleton_self _
  kinds := by
    intro token member
    rw [List.mem_singleton.mp member]
    exact .inl ⟨code, rfl, printed, separates⟩

end Splits

/-! ## Going through a text -/

/-- A word in progress at a place in a text: what stands before the place, from the start of the
word on. It may still be empty. -/
structure Scanning (separators : List Nat) (chars : List Int) (start : Nat) (word : List Int)
    (index : Nat) : Prop where
  length : start + word.length = index
  inside : index ≤ chars.length
  stands : word = (chars.drop start).take word.length
  plain : ∀ code ∈ word, ¬ EndsWord separators code
  before : ∀ (place : Nat) (code : Int), place + 1 = start → chars[place]? = some code →
    EndsWord separators code

namespace Scanning

/-- A code of a word in progress, where it stands in the text. -/
theorem mem (scanning : Scanning separators chars start word index) {place : Nat}
    (least : start ≤ place) (most : place < index) (read : chars[place]? = some code) :
    code ∈ word := by
  have length := scanning.length
  exact mem_of_stands scanning.stands least (by omega) read

/-- A word in progress that cannot go on is finished. -/
theorem splits_finish (scanning : Scanning separators chars start word index)
    (after : ∀ code, chars[index]? = some code → EndsWord separators code) :
    Splits separators chars start index (finish start word) := by
  have length := scanning.length
  unfold finish
  by_cases empty : word = []
  · subst empty
    obtain rfl : start = index := length
    exact .nil start
  rw [if_neg (by simpa using empty)]
  refine
    { ordered := List.pairwise_singleton _ _
      within := ?_
      stands := ?_
      covers := ?_
      alone := ?_
      kinds := ?_ }
  · intro token member
    rw [List.mem_singleton.mp member]
    exact ⟨Nat.le_refl _, Nat.le_of_eq length⟩
  · intro token member
    rw [List.mem_singleton.mp member]
    exact scanning.stands
  · intro place code least most read
    have plain := scanning.plain code (scanning.mem least most read)
    refine ⟨fun _ => (not_or.mp plain).1, fun _ => ⟨_, List.mem_singleton_self _, least, ?_⟩⟩
    exact Nat.lt_of_lt_of_eq most length.symm
  · intro place code least most read _ separates
    exact absurd (.inr separates) (scanning.plain code (scanning.mem least most read))
  · intro token member
    rw [List.mem_singleton.mp member]
    refine .inr ⟨empty, scanning.plain, scanning.before, fun code read => after code ?_⟩
    rwa [length] at read

/-- After a code that ends words, a new word may begin. -/
theorem fresh (read : chars[index]? = some code) (ends : EndsWord separators code) :
    Scanning separators chars (index + 1) [] (index + 1) where
  length := rfl
  inside := (List.getElem?_eq_some_iff.mp read).1
  stands := rfl
  plain := nofun
  before := by
    intro place other same found
    obtain rfl : place = index := Nat.succ.inj same
    rwa [Option.some.inj (found.symm.trans read)]

/-- Any other code goes on with the word. -/
theorem push (scanning : Scanning separators chars start word index)
    (read : chars[index]? = some code) (plain : ¬ EndsWord separators code) :
    Scanning separators chars start (word ++ [code]) (index + 1) where
  length := by
    rw [List.length_append, ← Nat.add_assoc, scanning.length]
    rfl
  inside := (List.getElem?_eq_some_iff.mp read).1
  stands := by
    have next : (chars.drop start)[word.length]? = some code := by
      rw [List.getElem?_drop, scanning.length, read]
    rw [List.length_append, List.length_singleton, List.take_add_one, ← scanning.stands, next]
    rfl
  plain := by
    intro other member
    rcases List.mem_append.mp member with earlier | last
    · exact scanning.plain other earlier
    · rwa [List.mem_singleton.mp last]
  before := scanning.before

end Scanning

/-- Where no word is in progress, it does not matter where the last one began. -/
theorem splitFrom_nil (separators : List Nat) (first second index : Nat) (rest : List Int) :
    splitFrom separators first [] index rest = splitFrom separators second [] index rest := by
  induction rest generalizing index with
  | nil => rfl
  | cons code rest ih =>
      unfold splitFrom
      rw [ih (index + 1)]
      rfl

/-- What is left of a text is split, with the word in progress. -/
theorem splits_splitFrom (scanning : Scanning separators chars start word index)
    (left : chars.drop index = rest) :
    Splits separators chars start chars.length (splitFrom separators start word index rest) := by
  induction rest generalizing start word index with
  | nil =>
      have all : chars.length ≤ index := List.drop_eq_nil_iff.mp left
      obtain rfl : index = chars.length := Nat.le_antisymm scanning.inside all
      refine scanning.splits_finish fun code read => ?_
      rw [List.getElem?_eq_none all] at read
      cases read
  | cons code rest ih =>
      have read : chars[index]? = some code := by
        rw [← List.head?_drop, left]
        rfl
      have inside : index < chars.length := (List.getElem?_eq_some_iff.mp read).1
      have later : chars.drop (index + 1) = rest := by
        rw [← List.tail_drop, left]
        rfl
      have begun : start ≤ index := by
        have length := scanning.length
        omega
      unfold splitFrom
      by_cases space : code = 0x20
      · rw [if_pos space, splitFrom_nil separators start (index + 1)]
        subst space
        have ended := scanning.splits_finish fun other found => by
          rw [Option.some.inj (found.symm.trans read)]
          exact .inl rfl
        have others := ih (Scanning.fresh read (.inl rfl)) later
        exact ended.append ((Splits.space read).append others (Nat.le_succ index) inside) begun
          (Nat.le_of_lt inside)
      rw [if_neg space]
      by_cases separates : IsSeparator separators code
      · have found : (separators.any fun separator => (separator : Int) = code) = true := by
          simpa [IsSeparator] using separates
        rw [if_pos found, splitFrom_nil separators start (index + 1)]
        have ended := scanning.splits_finish fun other found => by
          rw [Option.some.inj (found.symm.trans read)]
          exact .inr separates
        have others := ih (Scanning.fresh read (.inr separates)) later
        have itself := Splits.separator read space separates
        exact ended.append (itself.append others (Nat.le_succ index) inside) begun
          (Nat.le_of_lt inside)
      · have missing : ¬ (separators.any fun separator => (separator : Int) = code) = true := by
          simpa [IsSeparator] using separates
        rw [if_neg missing]
        have same : (if word.isEmpty then index else start) = start := by
          split
          · rename_i empty
            have length := scanning.length
            rw [List.isEmpty_iff.mp empty] at length
            exact length.symm
          · rfl
        rw [same]
        exact ih (scanning.push read (not_or.mpr ⟨space, separates⟩)) later

/-- The tokens that a text is split into. -/
theorem splits_split (dictionary : Dictionary) (chars : List Int) :
    Splits dictionary.separators chars 0 chars.length (dictionary.split chars) := by
  have scanning : Scanning dictionary.separators chars 0 [] 0 :=
    { length := rfl
      inside := Nat.zero_le _
      stands := rfl
      plain := nofun
      before := fun place _ never => absurd never (Nat.succ_ne_zero place) }
  exact splits_splitFrom scanning rfl

/-! ## No other tokens -/

namespace Splits

variable {tokens others : List Token}

/-- A token lies inside the text. -/
theorem exists_code (splits : Splits separators chars 0 chars.length tokens) {token : Token}
    (member : token ∈ tokens) (place : Nat) (most : place < token.1 + token.2.length) :
    ∃ code, chars[place]? = some code := by
  have inside := (splits.within token member).2
  exact ⟨_, List.getElem?_eq_getElem (by omega)⟩

/-- A token holds the codes at its places. -/
theorem mem (splits : Splits separators chars 0 chars.length tokens) {token : Token}
    (member : token ∈ tokens) {place : Nat} (least : token.1 ≤ place)
    (most : place < token.1 + token.2.length) (read : chars[place]? = some code) :
    code ∈ token.2 :=
  mem_of_stands (splits.stands token member) least most read

/-- A word of one list of tokens is a word of every other. -/
theorem mem_of_isWord (splits : Splits separators chars 0 chars.length tokens)
    (other : Splits separators chars 0 chars.length others) {token : Token}
    (member : token ∈ tokens) (isWord : IsWord separators chars token.1 token.2) :
    token ∈ others := by
  have positive := splits.length_pos member
  obtain ⟨code, read⟩ := splits.exists_code member token.1 (by omega)
  have plain := isWord.plain code (splits.mem member (Nat.le_refl _) (by omega) read)
  have inside := (splits.within token member).2
  -- The token of the other list that covers the first code of the word.
  obtain ⟨found, listed, begins, ends⟩ :=
    (other.covers token.1 code (Nat.zero_le _) (by omega) read).mpr (not_or.mp plain).1
  rcases other.kinds found listed with ⟨separator, alone, -, separates⟩ | isWord'
  · have holds := other.mem listed begins ends read
    rw [alone] at holds
    obtain rfl := List.mem_singleton.mp holds
    exact absurd (.inr separates) plain
  have start : found.1 = token.1 := by
    refine Nat.le_antisymm begins (Nat.le_of_not_lt fun later => ?_)
    obtain ⟨previous, read⟩ := other.exists_code listed (token.1 - 1) (by omega)
    refine isWord'.plain previous ?_ (isWord.before (token.1 - 1) previous (by omega) read)
    exact other.mem listed (by omega) (by omega) read
  have length : found.2.length = token.2.length := by
    rcases Nat.lt_trichotomy found.2.length token.2.length with shorter | same | longer
    · obtain ⟨next, read⟩ :=
        splits.exists_code member (found.1 + found.2.length) (by omega)
      refine absurd (isWord'.after next read) (isWord.plain next ?_)
      exact splits.mem member (by omega) (by omega) read
    · exact same
    · obtain ⟨next, read⟩ :=
        other.exists_code listed (token.1 + token.2.length) (by omega)
      refine absurd (isWord.after next read) (isWord'.plain next ?_)
      exact other.mem listed (by omega) (by omega) read
  have text : found.2 = token.2 := by
    rw [other.stands found listed, splits.stands token member, start, length]
  rwa [← show found = token from Prod.ext start text]

/-- The tokens of a text are determined. -/
theorem subset (splits : Splits separators chars 0 chars.length tokens)
    (other : Splits separators chars 0 chars.length others) : tokens ⊆ others := by
  intro token member
  rcases splits.kinds token member with ⟨code, alone, printed, separates⟩ | isWord
  · have positive := splits.length_pos member
    have inside := (splits.within token member).2
    obtain ⟨found, read⟩ := splits.exists_code member token.1 (by omega)
    have holds := splits.mem member (Nat.le_refl _) (by omega) read
    rw [alone] at holds
    obtain rfl := List.mem_singleton.mp holds
    have there := other.alone token.1 found (Nat.zero_le _) (by omega) read printed separates
    rwa [← alone] at there
  · exact splits.mem_of_isWord other member isWord

private theorem eq (splits : Splits separators chars 0 chars.length tokens)
    (other : Splits separators chars 0 chars.length others) : tokens = others := by
  have irreflexive : Std.Irrefl fun first second : Token => first.1 < second.1 :=
    ⟨fun token => Nat.lt_irrefl token.1⟩
  have antisymmetric : Std.Antisymm fun first second : Token => first.1 < second.1 :=
    ⟨fun _ _ before after => absurd (before.trans after) (Nat.lt_irrefl _)⟩
  have sorted {list : List Token} (splits : Splits separators chars 0 chars.length list) :
      list.Pairwise fun first second => first.1 < second.1 :=
    splits.ordered.imp fun order => order.1
  exact List.Subset.antisymm_of_pairwise (sorted splits) (sorted other) (splits.subset other)
    (other.subset splits)

end Splits

/-- Splitting a text loses and repeats nothing, for every set of separators. The tokens stand one
after the other where the text has them; a code of the text lies in a token exactly if it is not a
space; every separator other than the space is a token by itself, and every other token is a word,
which ends at both sides where the text does or at a space or a separator. No other list of tokens
is like this. -/
theorem splits_iff_eq_split (dictionary : Dictionary) (chars : List Int) (tokens : List Token) :
    Splits dictionary.separators chars 0 chars.length tokens ↔ tokens = dictionary.split chars := by
  constructor
  · intro splits
    exact splits.eq (dictionary.splits_split chars)
  · rintro rfl
    exact dictionary.splits_split chars

/-- A comma is a token by itself, and spaces are dropped, also where the space is a separator. -/
example : split { (default : Dictionary) with separators := [44, 32] } [32, 97, 98, 44, 99] =
    [(1, [97, 98]), (3, [44]), (4, [99])] := by
  decide

end Dictionary

end StoryMachine
