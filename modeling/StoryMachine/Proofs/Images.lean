import Mathlib.Data.List.Nodup
import Mathlib.Data.Nat.Bitwise
import StoryMachine.Header

/-!
# Bytes of an image

What a byte or a bit reads as after another was written, and which bits of the
header the machine owns: announcing the surroundings to a story changes those
bits and no others.
-/

namespace StoryMachine

namespace Result

/-- An answer that was reached in two steps. -/
theorem bind_eq_ok {α β : Type} {first : Result α} {rest : α → Result β} {b : β}
    (answer : first >>= rest = .ok b) : ∃ a, first = .ok a ∧ rest a = .ok b := by
  cases first with
  | error failure => simp only [bind, Except.bind, reduceCtorEq] at answer
  | ok a => exact ⟨a, rfl, answer⟩

/-- What follows is given the answer. -/
theorem ok_bind {α β : Type} (a : α) (rest : α → Result β) :
    (Except.ok a >>= rest : Result β) = rest a :=
  rfl

end Result

/-- Where no two items have one key, a search for the key of an item finds that item. -/
theorem find?_eq_some_of_nodup {α κ : Type} {key : α → κ} {items : List α} {item : α}
    {wanted : α → Bool} (distinct : (items.map key).Nodup) (member : item ∈ items)
    (alike : ∀ other, wanted other = true ↔ key other = key item) :
    items.find? wanted = some item := by
  cases found : items.find? wanted with
  | none => exact absurd ((alike item).mpr rfl) (List.find?_eq_none.mp found item member)
  | some other =>
      have same := (alike other).mp (List.find?_some found)
      rw [List.inj_on_of_nodup_map distinct (List.mem_of_find?_eq_some found) member same]

namespace Image

variable {image other : Image}

/-- A byte that is read lies inside the image. -/
theorem byte_eq_ok {address : Int} {value : Nat} (read : image.byte address = .ok value) :
    image.Holds address ∧ value = image.peek address.toNat := by
  unfold byte at read
  by_cases holds : image.Holds address
  · simp only [holds, ↓reduceIte, Except.ok.injEq] at read
    exact ⟨holds, read.symm⟩
  · simp only [holds, ↓reduceIte, Result.fault, reduceCtorEq] at read

/-- A byte inside the image is read. -/
theorem byte_of_holds {address : Int} (holds : image.Holds address) :
    image.byte address = .ok (image.peek address.toNat) := by
  unfold byte
  simp only [holds, ↓reduceIte]

/-- What is read as a byte fits one. -/
theorem byte_lt {address : Int} {value : Nat} (read : image.byte address = .ok value) :
    value < 256 := by
  obtain ⟨-, rfl⟩ := byte_eq_ok read
  exact image.peek_lt _

/-- A word of the image fits one. -/
theorem peekWord_lt (image : Image) (address : Nat) : image.peekWord address < 0x10000 := by
  have high := image.peek_lt address
  have low := image.peek_lt (address + 1)
  unfold peekWord
  omega

/-- Images of one size are equal where they read the same. -/
theorem getElem?_eq_of_peek {address : Nat} (size : image.size = other.size)
    (same : image.peek address = other.peek address) :
    image.bytes[address]? = other.bytes[address]? := by
  unfold Image.size at size
  unfold peek at same
  by_cases inside : address < image.bytes.size
  · have inside' : address < other.bytes.size := size ▸ inside
    simp only [Array.getD_eq_getD_getElem?, Array.getElem?_eq_getElem inside,
      Array.getElem?_eq_getElem inside', Option.getD_some] at same ⊢
    exact congrArg some (UInt8.toNat_inj.mp same)
  · have outside' : ¬ address < other.bytes.size := size ▸ inside
    rw [Array.getElem?_eq_none (Nat.le_of_not_lt inside),
      Array.getElem?_eq_none (Nat.le_of_not_lt outside')]

/-- A byte is looked at alike where two images agree. -/
theorem peek_eq_of_getElem? {address : Nat}
    (same : image.bytes[address]? = other.bytes[address]?) :
    image.peek address = other.peek address := by
  unfold peek
  rw [Array.getD_eq_getD_getElem?, Array.getD_eq_getD_getElem?, same]

/-! ## Writing bytes and bits -/

/-- Poking a byte leaves the others. -/
theorem peek_poke_of_ne {address place : Nat} (apart : address ≠ place) (value : Int) :
    (image.poke place value).peek address = image.peek address := by
  apply peek_eq_of_getElem?
  unfold poke
  exact Array.getElem?_setIfInBounds_ne (Ne.symm apart)

private theorem peekFlag_poke_of_ne {address place : Nat} (apart : address ≠ place) (value : Int)
    (bit : Nat) : (image.poke place value).peekFlag address bit = image.peekFlag address bit := by
  unfold peekFlag
  rw [peek_poke_of_ne apart]

private theorem peekFlag_pokeWord_of_ne {address place : Nat} (first : address ≠ place)
    (second : address ≠ place + 1) (value : Int) (bit : Nat) :
    (image.pokeWord place value).peekFlag address bit = image.peekFlag address bit := by
  unfold pokeWord
  rw [peekFlag_poke_of_ne second, peekFlag_poke_of_ne first]

/-- A byte with another bit is a byte. -/
theorem withBit_lt {byte bit : Nat} (bound : byte < 256) (on : Bool) :
    withBit byte bit on < 256 := by
  unfold withBit
  split
  · rename_i small
    split
    · have shifted : 1 <<< bit < 2 ^ 8 := by
        rw [Nat.one_shiftLeft]
        exact Nat.pow_lt_pow_right (by omega) small
      exact Nat.or_lt_two_pow bound shifted
    · omega
  · exact bound

/-- Taking one bit away leaves the others as they are. -/
theorem testBit_sub_and_two_pow {byte bit other : Nat} (apart : other ≠ bit) :
    (byte - (byte &&& 2 ^ bit)).testBit other = byte.testBit other := by
  rw [Nat.and_two_pow]
  cases set : byte.testBit bit with
  | false => simp only [Bool.toNat_false, Nat.zero_mul, Nat.sub_zero]
  | true =>
      simp only [Bool.toNat_true, Nat.one_mul]
      -- The bit is the lowest of the part above the `bit` lowest ones.
      have odd : byte / 2 ^ bit % 2 = 1 := by
        simpa only [Nat.testBit_eq_decide_div_mod_eq, decide_eq_true_eq] using set
      obtain ⟨half, above⟩ : ∃ half, byte / 2 ^ bit = 2 * half + 1 :=
        ⟨byte / 2 ^ bit / 2, by omega⟩
      have low := Nat.mod_lt byte (Nat.two_pow_pos bit)
      have whole : byte = 2 ^ bit * (2 * half + 1) + byte % 2 ^ bit := by
        rw [← above]
        exact (Nat.div_add_mod byte (2 ^ bit)).symm
      have cleared : byte - 2 ^ bit = 2 ^ bit * (2 * half) + byte % 2 ^ bit := by
        rw [Nat.mul_succ] at whole
        omega
      rw [cleared]
      conv_rhs => rw [whole]
      rw [Nat.two_pow_add_eq_or_of_lt low, Nat.two_pow_add_eq_or_of_lt low]
      simp only [Nat.testBit_or, Nat.testBit_two_pow_mul]
      congr 1
      rcases Nat.lt_or_ge other bit with below | beyond
      · simp only [ge_iff_le, Nat.not_le.mpr below, decide_false, Bool.false_and]
      · obtain ⟨distance, counted⟩ : ∃ distance, other - bit = distance + 1 :=
          ⟨other - bit - 1, by omega⟩
        have even : 2 * half / 2 = half := by omega
        have uneven : (2 * half + 1) / 2 = half := by omega
        rw [counted, Nat.testBit_succ, Nat.testBit_succ, even, uneven]

/-- Changing a bit leaves the others. -/
theorem testBit_withBit_of_ne {byte bit other : Nat} (apart : other ≠ bit) (on : Bool) :
    (withBit byte bit on).testBit other = byte.testBit other := by
  unfold withBit
  split
  · split
    · rw [Nat.one_shiftLeft, Nat.testBit_or, Nat.testBit_two_pow_of_ne (Ne.symm apart),
        Bool.or_false]
    · rw [Nat.one_shiftLeft]
      exact testBit_sub_and_two_pow apart
  · rfl

/-- A bit that has been changed is as it was said to be. -/
theorem testBit_withBit_self :
    ∀ bit < 8, ∀ byte < 256, ∀ on, (withBit byte bit on).testBit bit = on := by
  decide +kernel

/-- A byte that has been poked is there. -/
theorem peek_poke_self {address : Nat} (inside : address < image.size) (value : Int) :
    (image.poke address value).peek address = (Byte.ofInt value).toNat := by
  unfold peek poke
  rw [Array.getD_eq_getD_getElem?, Array.getElem?_setIfInBounds_self_of_lt inside,
    Option.getD_some]

/-- A number below 256 is its own byte. -/
theorem toNat_byte_ofInt {value : Nat} (bound : value < 256) :
    (Byte.ofInt value).toNat = value := by
  unfold Byte.ofInt
  rw [UInt8.toNat_ofNat']
  omega

/-- Changing a flag leaves the others. -/
theorem peekFlag_pokeFlag_of_ne {address place bit number : Nat}
    (apart : address ≠ place ∨ bit ≠ number) (on : Bool) :
    (image.pokeFlag place number on).peekFlag address bit = image.peekFlag address bit := by
  by_cases same : address = place
  · subst same
    have other : bit ≠ number := apart.resolve_left fun differs => differs rfl
    by_cases inside : address < image.size
    · unfold peekFlag pokeFlag
      rw [peek_poke_self inside, toNat_byte_ofInt (withBit_lt (image.peek_lt address) on),
        testBit_withBit_of_ne other]
    · have outside : image.bytes.size ≤ address := Nat.le_of_not_lt inside
      unfold peekFlag pokeFlag poke
      rw [Array.setIfInBounds_eq_of_size_le outside]
  · exact peekFlag_poke_of_ne same _ bit

/-- Bytes are the same where all their bits are. -/
theorem peek_eq_of_peekFlag {address : Nat}
    (bits : ∀ bit, image.peekFlag address bit = other.peekFlag address bit) :
    image.peek address = other.peek address :=
  Nat.eq_of_testBit_eq bits

end Image

/-! ## The fields of the header that the machine owns -/

namespace Header

/-- The bits that the machine writes when it announces the surroundings to a story of a version. -/
def Owned (version : Nat) (about : Surroundings) (address bit : Nat) : Prop :=
  address ∈ [0x1e, 0x1f, 0x32, 0x33] ∨
  (version < 4 ∧ address = 0x01 ∧ bit ∈ [4, 5, 6]) ∨
  (4 ≤ version ∧ (address = 0x01 ∧ bit ∈ [0, 1, 2, 3, 4, 5, 7] ∨ address ∈ [0x20, 0x21])) ∨
  (5 ≤ version ∧
    (address ∈ [0x22, 0x23, 0x24, 0x25, 0x26, 0x27, 0x2c, 0x2d] ∨
      address = 0x11 ∧ (bit = 3 ∨ bit = 7 ∧ about.soundAvailable = false)))

/-- The bits that a restart or a restored game keeps: the transcript and the fixed pitch. -/
def Preserved (address bit : Nat) : Prop :=
  address = 0x11 ∧ bit < 2

/-- What belongs to the interpreter lies in the header. -/
theorem Owned.lt_size {version address bit : Nat} {about : Surroundings}
    (owned : Owned version about address bit) : address < size := by
  simp only [Owned, List.mem_cons, List.not_mem_nil, or_false] at owned
  unfold size
  omega

end Header

namespace Image

variable (image : Image) (about : Surroundings)

@[simp] theorem size_pokeWord (address : Nat) (value : Int) :
    (image.pokeWord address value).size = image.size := by
  unfold pokeWord
  rw [size_poke, size_poke]

@[simp] theorem size_pokeFlag (address bit : Nat) (on : Bool) :
    (image.pokeFlag address bit on).size = image.size :=
  size_poke image address _

@[simp] theorem size_keepFlags (earlier : Nat) : (image.keepFlags earlier).size = image.size :=
  size_pokeWord image _ _

@[simp] theorem size_setTranscriptOn (on : Bool) :
    (image.setTranscriptOn on).size = image.size :=
  size_pokeFlag image _ _ _

@[simp] theorem size_announce : (image.announce about).size = image.size := by
  have early : (image.announceEarly about).size = image.size := by
    simp only [announceEarly, size_pokeFlag]
  have screen : (image.announceScreen about).size = image.size := by
    simp only [announceScreen, size_poke, size_pokeFlag]
  have units (before : Image) : (before.announceUnits about).size = before.size := by
    unfold announceUnits
    split <;> simp only [size_poke, size_pokeFlag, size_pokeWord]
  have interpreter (before : Image) : before.announceInterpreter.size = before.size := by
    simp only [announceInterpreter, size_poke]
  unfold announce
  dsimp only
  rw [interpreter]
  split
  · rw [units]
    split
    · exact early
    · exact screen
  · split
    · exact early
    · exact screen

variable {address bit : Nat}

private theorem peekFlag_announceEarly (unowned : ¬ (address = 0x01 ∧ bit ∈ [4, 5, 6])) :
    (image.announceEarly about).peekFlag address bit = image.peekFlag address bit := by
  simp only [List.mem_cons, List.not_mem_nil, or_false] at unowned
  unfold announceEarly
  rw [peekFlag_pokeFlag_of_ne (by omega), peekFlag_pokeFlag_of_ne (by omega),
    peekFlag_pokeFlag_of_ne (by omega)]

private theorem peekFlag_announceScreen
    (flags : ¬ (address = 0x01 ∧ bit ∈ [0, 1, 2, 3, 4, 5, 7]))
    (size : address ∉ [0x20, 0x21]) :
    (image.announceScreen about).peekFlag address bit = image.peekFlag address bit := by
  simp only [List.mem_cons, List.not_mem_nil, or_false] at flags size
  unfold announceScreen
  dsimp only
  rw [peekFlag_poke_of_ne (by omega), peekFlag_poke_of_ne (by omega),
    peekFlag_pokeFlag_of_ne (by omega), peekFlag_pokeFlag_of_ne (by omega),
    peekFlag_pokeFlag_of_ne (by omega), peekFlag_pokeFlag_of_ne (by omega),
    peekFlag_pokeFlag_of_ne (by omega), peekFlag_pokeFlag_of_ne (by omega),
    peekFlag_pokeFlag_of_ne (by omega)]

private theorem peekFlag_announceUnits
    (units : address ∉ [0x22, 0x23, 0x24, 0x25, 0x26, 0x27, 0x2c, 0x2d])
    (flags : ¬ (address = 0x11 ∧ (bit = 3 ∨ bit = 7 ∧ about.soundAvailable = false))) :
    (image.announceUnits about).peekFlag address bit = image.peekFlag address bit := by
  simp only [List.mem_cons, List.not_mem_nil, or_false] at units
  have rest : ((((((image.pokeWord 0x22 about.screenColumns).pokeWord 0x24
      about.screenLines).poke 0x26 1).poke 0x27 1).poke 0x2d about.foreground).poke 0x2c
      about.background).peekFlag address bit = image.peekFlag address bit := by
    rw [peekFlag_poke_of_ne (by omega), peekFlag_poke_of_ne (by omega),
      peekFlag_poke_of_ne (by omega), peekFlag_poke_of_ne (by omega),
      peekFlag_pokeWord_of_ne (by omega) (by omega), peekFlag_pokeWord_of_ne (by omega) (by omega)]
  unfold announceUnits
  dsimp only
  split
  · rw [peekFlag_pokeFlag_of_ne (by omega), rest]
  · rename_i silent
    have quiet : about.soundAvailable = false := Bool.eq_false_of_not_eq_true silent
    simp only [quiet, and_true] at flags
    rw [peekFlag_pokeFlag_of_ne (by omega), peekFlag_pokeFlag_of_ne (by omega), rest]

private theorem peekFlag_announceInterpreter (unowned : address ∉ [0x1e, 0x1f, 0x32, 0x33]) :
    image.announceInterpreter.peekFlag address bit = image.peekFlag address bit := by
  simp only [List.mem_cons, List.not_mem_nil, or_false] at unowned
  unfold announceInterpreter
  rw [peekFlag_poke_of_ne (by omega), peekFlag_poke_of_ne (by omega),
    peekFlag_poke_of_ne (by omega), peekFlag_poke_of_ne (by omega)]

/-- The machine announces its surroundings in the bits that it owns and in no others. -/
theorem peekFlag_announce (unowned : ¬ Header.Owned image.version about address bit) :
    (image.announce about).peekFlag address bit = image.peekFlag address bit := by
  unfold Header.Owned at unowned
  simp only [not_or] at unowned
  obtain ⟨interpreter, early, screen, units⟩ := unowned
  have first : (if image.version < 4 then image.announceEarly about
      else image.announceScreen about).peekFlag address bit = image.peekFlag address bit := by
    split
    · rename_i old
      exact peekFlag_announceEarly image about fun owned => early ⟨old, owned⟩
    · rename_i late
      have later : 4 ≤ image.version := Nat.le_of_not_lt late
      exact peekFlag_announceScreen image about (fun owned => screen ⟨later, .inl owned⟩)
        fun owned => screen ⟨later, .inr owned⟩
  unfold announce
  dsimp only
  rw [peekFlag_announceInterpreter _ interpreter]
  split
  · rename_i latest
    rw [peekFlag_announceUnits _ about (fun owned => units ⟨latest, .inl owned⟩)
      fun owned => units ⟨latest, .inr owned⟩, first]
  · exact first

/-- The low byte of the flags, with its two lowest bits taken from an earlier value. -/
theorem testBit_kept (byte earlier bit : Nat) :
    (byte - byte % 4 + earlier % 4).testBit bit =
      if bit < 2 then earlier.testBit bit else byte.testBit bit := by
  match bit with
  | 0 =>
      simp only [Nat.testBit_zero, Nat.zero_lt_two, ↓reduceIte, decide_eq_decide]
      omega
  | 1 =>
      simp only [Nat.testBit_succ, Nat.testBit_zero, Nat.one_lt_two, ↓reduceIte, decide_eq_decide]
      omega
  | bit + 2 =>
      have quarter : (byte - byte % 4 + earlier % 4) / 2 / 2 = byte / 2 / 2 := by omega
      have large : ¬ bit + 2 < 2 := by omega
      simp only [Nat.testBit_succ, quarter, large, ↓reduceIte]

/-- Keeping the flags changes two bytes, and only the lowest two bits of the second. -/
theorem keepFlags_eq (earlier : Nat) :
    image.keepFlags earlier =
      (image.poke 0x10 (image.peek 0x10)).poke 0x11
        ((image.peek 0x11 - image.peek 0x11 % 4 + earlier % 4 : Nat) : Int) := by
  have high := image.peek_lt 0x10
  have low := image.peek_lt 0x11
  have flags : image.flags2 = image.peek 0x10 * 256 + image.peek 0x11 := rfl
  unfold keepFlags setFlags2 pokeWord
  rw [flags]
  congr 2
  · unfold Word.high Word.ofInt
    omega
  · unfold Word.low Word.ofInt
    omega

/-- The kept bits come from the earlier flags, and all others stay. -/
theorem peekFlag_keepFlags (inside : Header.size ≤ image.size) (earlier : Nat) :
    (image.keepFlags earlier).peekFlag address bit =
      if address = 0x11 ∧ bit < 2 then earlier.testBit bit else image.peekFlag address bit := by
  have low := image.peek_lt 0x11
  unfold Header.size at inside
  rw [keepFlags_eq]
  by_cases second : address = 0x11
  · subst second
    have place : 0x11 < (image.poke 0x10 (image.peek 0x10)).size := by
      rw [size_poke]
      omega
    simp only [peekFlag, peek_poke_self place, true_and]
    rw [toNat_byte_ofInt (by omega), testBit_kept]
  · simp only [second, false_and, ↓reduceIte]
    rw [peekFlag_poke_of_ne second]
    by_cases first : address = 0x10
    · subst first
      unfold peekFlag
      rw [peek_poke_self (by omega), toNat_byte_ofInt (image.peek_lt _)]
    · rw [peekFlag_poke_of_ne first]

/-! ## Beyond the header -/

/-- Telling a story about its surroundings leaves all behind the header. -/
theorem peek_announce_of_size_le (beyond : Header.size ≤ address) :
    (image.announce about).peek address = image.peek address := by
  apply peek_eq_of_peekFlag
  intro bit
  apply peekFlag_announce
  intro owned
  exact absurd owned.lt_size (Nat.not_lt.mpr beyond)

/-- Keeping the flags leaves all behind the header. -/
theorem peek_keepFlags_of_size_le (beyond : Header.size ≤ address) (earlier : Nat) :
    (image.keepFlags earlier).peek address = image.peek address := by
  unfold Header.size at beyond
  rw [keepFlags_eq, peek_poke_of_ne (by omega), peek_poke_of_ne (by omega)]

/-- Recording whether there is a transcript leaves all behind the header. -/
theorem peek_setTranscriptOn_of_size_le (beyond : Header.size ≤ address) (on : Bool) :
    (image.setTranscriptOn on).peek address = image.peek address := by
  unfold Header.size at beyond
  exact peek_poke_of_ne (by omega) _

/-! ## Bytes that stand in an image -/

/-- The given bytes stand in the image one after the other, the first of them at an address. -/
def Carries (image : Image) (address : Int) : List UInt8 → Prop
  | [] => True
  | byte :: rest => image.byte address = .ok byte.toNat ∧ image.Carries (address + 1) rest

instance decidableCarries (image : Image) (address : Int) :
    (bytes : List UInt8) → Decidable (image.Carries address bytes)
  | [] => isTrue trivial
  | _ :: rest =>
      have := decidableCarries image (address + 1) rest
      inferInstanceAs (Decidable (_ ∧ _))

variable {image}

/-- An image carries two pieces if it carries one behind the other. -/
theorem carries_append {front back : List UInt8} {address : Int} :
    image.Carries address (front ++ back) ↔
      image.Carries address front ∧ image.Carries (address + front.length) back := by
  induction front generalizing address with
  | nil => simp [Carries]
  | cons byte rest ih =>
      have shifted : address + 1 + rest.length = address + (byte :: rest).length := by
        simp only [List.length_cons]
        omega
      simp only [List.cons_append, Carries, ih, shifted, and_assoc]

/-- An image carries the bytes that stand in it. -/
theorem carries_of_toList (before bytes after : List UInt8)
    (whole : image.bytes.toList = before ++ bytes ++ after) :
    image.Carries before.length bytes := by
  induction bytes generalizing before with
  | nil => trivial
  | cons byte rest ih =>
      have here : image.bytes.toList[before.length]? = some byte := by
        rw [whole]
        simp
      have inside : before.length < image.size := by
        unfold size
        rw [← Array.length_toList, whole]
        simp
      refine ⟨?_, ?_⟩
      · rw [byte_of_holds ⟨Int.natCast_nonneg _, Int.ofNat_lt.mpr inside⟩]
        simp [peek, ← Array.getElem?_toList, here]
      · simpa using ih (before ++ [byte]) (by simpa using whole)

/-- Two bytes that are read make a word. -/
theorem word_of_bytes {address : Int} {high low : Nat} (first : image.byte address = .ok high)
    (second : image.byte (address + 1) = .ok low) :
    image.word address = .ok (high * 256 + low) := by
  unfold word
  rw [first, second]
  rfl

end Image

end StoryMachine
