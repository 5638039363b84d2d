/-!
# Bytes and sixteen-bit words

Arithmetic is carried out on unbounded integers and folded into a byte or a
word where a value is stored. A word has an unsigned reading `0..65535` and a
signed reading `-32768..32767`; both are functions of the value modulo `65536`.
-/

namespace StoryMachine

/-- The low eight bits of a number. -/
def Byte.ofInt (value : Int) : UInt8 :=
  UInt8.ofNat (value % 256).toNat

namespace Word

/-- The unsigned sixteen-bit reading of a number. -/
def ofInt (value : Int) : Nat :=
  (value % 65536).toNat

/-- The signed sixteen-bit reading of a number. -/
def signed (value : Int) : Int :=
  if 0x7fff < ofInt value then (ofInt value : Int) - 65536 else ofInt value

/-- The high byte of a word. -/
def high (word : Nat) : Nat :=
  word / 256 % 256

/-- The low byte of a word. -/
def low (word : Nat) : Nat :=
  word % 256

/-- What is made a word fits one. -/
theorem ofInt_lt (value : Int) : ofInt value < 65536 := by
  unfold ofInt
  omega

/-- A number that fits a word is itself as a word. -/
theorem ofInt_natCast {word : Nat} (bound : word < 65536) : ofInt word = word := by
  unfold ofInt
  omega

/-- Both readings name the same word. -/
theorem ofInt_signed (value : Int) : ofInt (signed value) = ofInt value := by
  unfold signed
  have bound := ofInt_lt value
  split
  · unfold ofInt at *
    omega
  · exact ofInt_natCast bound

/-- The least signed word. -/
theorem signed_lower (value : Int) : -32768 ≤ signed value := by
  unfold signed
  split <;> omega

/-- The largest signed word. -/
theorem signed_upper (value : Int) : signed value ≤ 32767 := by
  unfold signed
  have bound := ofInt_lt value
  split <;> omega

/-- The two bytes of a word give it back. -/
theorem high_low {word : Nat} (bound : word < 65536) : high word * 256 + low word = word := by
  unfold high low
  omega

end Word

end StoryMachine
