import Baskets.Proofs.Scan.Header
import Baskets.Proofs.Text.Utf8

/-!
# Serialized values

`Serial registry type ctx value bytes` says that the bytes are a way to write a value of a type in
some surroundings.  It is the format as a writer has it: what has to be written is said by the
value, and what a reader never looks at may be anything.

A value has a header where its surroundings call for one, and an object has one everywhere: a count
of the bytes behind the count, marked by bit 30, and a version word.  Bit 14 of the version word
marks maps, whose keys all come before their values.
-/

namespace Baskets

/-! ## headers -/

/-- a header that counts so many bytes behind it, and the two of its version word -/
def countingHeader (word size : Nat) : Bytes :=
  Bytes.bigOf 4 (2 ^ 30 + (2 + size)) ++ Bytes.bigOf 2 word

@[simp] theorem size_countingHeader (word size : Nat) : (countingHeader word size).size = 6 := by
  unfold countingHeader
  simp

/-- bytes behind a header that counts them -/
def counted (word : Nat) (body : Bytes) : Bytes := countingHeader word body.size ++ body

@[simp]
theorem size_counted (word : Nat) (body : Bytes) : (counted word body).size = 6 + body.size := by
  unfold counted
  simp

/-- a container with the header that its surroundings call for -/
inductive Framed (ctx : Context) (body : Bytes) : Bytes → Prop where
  | bare (off : ctx.header = false) : Framed ctx body body
  | headed {word : Nat} (on : ctx.header = true) (fits : word < 256 ^ 2)
    (plain : word.testBit 14 = false) (small : 2 + body.size < 2 ^ 30) :
    Framed ctx body (counted word body)

theorem Framed.size_le {ctx : Context} {body bytes : Bytes} (framed : Framed ctx body bytes) :
    body.size ≤ bytes.size := by
  cases framed with
  | bare => exact Nat.le_refl _
  | headed =>
    simp

/-- a map with its header, which has a mark and goes on for another six bytes -/
inductive FramedMap (ctx : Context) (body : Bytes) : Bytes → Prop where
  | bare (off : ctx.header = false) : FramedMap ctx body body
  | headed {word : Nat} {further : Bytes} (on : ctx.header = true) (fits : word < 256 ^ 2)
    (marked : word.testBit 14 = true) (six : further.size = 6)
    (small : 2 + (further ++ body).size < 2 ^ 30) :
    FramedMap ctx body (counted word (further ++ body))

theorem FramedMap.size_le {ctx : Context} {body bytes : Bytes} (framed : FramedMap ctx body bytes) :
    body.size ≤ bytes.size := by
  cases framed with
  | bare => exact Nat.le_refl _
  | headed =>
    rw [size_counted, Array.size_append]
    omega

/-! ## parts of fixed kinds -/

/-- a text behind its length, which takes one byte, or five -/
inductive WrittenText (s : String) : Bytes → Prop where
  | short (small : (Text.utf8 s).size < 255) :
    WrittenText s (Bytes.bigOf 1 (Text.utf8 s).size ++ Text.utf8 s)
  | long (small : (Text.utf8 s).size < 256 ^ 4) :
    WrittenText s (Bytes.bigOf 1 255 ++ (Bytes.bigOf 4 (Text.utf8 s).size ++ Text.utf8 s))

/-- the head of a `TObject`, with its unique number and its bits; among these the on-heap bit is
always set.  A counted version and a referenced object have more bytes, which do not matter -/
inductive WrittenHead (ctx : Context) : (unique bits : Nat) → Bytes → Prop where
  | absent (off : ctx.objectHead = false) : WrittenHead ctx 0 0 #[]
  | present {word unique bits : Nat} {count process : Bytes} (on : ctx.objectHead = true)
    (version : word < 256 ^ 2) (counted : count.size = if word.testBit 14 then 4 else 0)
    (number : unique < 256 ^ 4) (small : bits < 256 ^ 4)
    (referenced : process.size = if bits.testBit 4 then 2 else 0) :
    WrittenHead ctx unique (bits ||| 0x1000000)
      (Bytes.bigOf 2 word ++ (count ++ (Bytes.bigOf 4 unique ++ (Bytes.bigOf 4 bits ++ process))))

/-- references, one behind the other -/
def referenceBytes : List Int → Bytes
  | [] => #[]
  | n :: rest => Bytes.signedOf 4 n ++ referenceBytes rest

/-! ## all types -/

section
variable (registry : Registry)

mutual

/-- the bytes are a way to write the value -/
inductive Serial : StreamType → Context → Value → Bytes → Prop where
  | number {p : Primitive} {ctx : Context} {value : Value} {bytes : Bytes}
    (writes : p.Writes value bytes) : Serial (.primitive p) ctx value bytes
  | tstring {ctx : Context} {s : String} {bytes : Bytes} (text : WrittenText s bytes) :
    Serial (.text .tstring) ctx (.text s) bytes
  | stdString {ctx : Context} {s : String} {body bytes : Bytes} (text : WrittenText s body)
    (framed : Framed ctx body bytes) : Serial (.text .stdString) ctx (.text s) bytes
  | head {ctx : Context} {unique bits : Nat} {bytes : Bytes}
    (written : WrittenHead ctx unique bits bytes) :
    Serial .object ctx (.record [("@fUniqueID", .uint unique), ("@fBits", .uint bits)]) bytes
  | datime {ctx : Context} {packed : Nat} (small : packed < 256 ^ 4) :
    Serial .datime ctx (.record [("fDatime", .uint packed)]) (Bytes.bigOf 4 packed)
  | time {ctx : Context} {milliseconds : Int} {bytes : Bytes}
    (fits : Bytes.Signed 8 milliseconds) (framed : Framed ctx (Bytes.signedOf 8 milliseconds) bytes) :
    Serial .time ctx (.record [("fMilliSec", .int milliseconds)]) bytes
  | ref {ctx : Context} {reference : Nat} {before behind : Bytes} (two : before.size = 2)
    (small : reference < 256 ^ 4) (six : behind.size = 6) :
    Serial .ref ctx (.record [("ref", .uint reference)])
      (before ++ (Bytes.bigOf 4 reference ++ behind))
  | refArray {ctx : Context} {name : String} {refs : List Int} {lead text gap bytes : Bytes}
    (ten : lead.size = 10) (named : WrittenText name text)
    (count : Bytes.Signed 4 refs.length) (six : gap.size = 6)
    (fits : ∀ n ∈ refs, Bytes.Signed 4 n)
    (framed : Framed ctx (lead ++ (text ++ (Bytes.signedOf 4 refs.length ++
      (gap ++ referenceBytes refs)))) bytes) :
    Serial .refArray ctx (.record [("fName", .text name), ("fSize", .int refs.length),
      ("refs", .list (refs.map .int))]) bytes
  | vector {element : StreamType} {ctx : Context} {items : List Value} {all bytes : Bytes}
    (count : items.length < 256 ^ 4) (inner : SerialAll element ctx.items items all)
    (framed : Framed ctx (Bytes.bigOf 4 items.length ++ all) bytes) :
    Serial (.vector element) ctx (.list items) bytes
  | array {element : StreamType} {count : UInt64} {ctx : Context} {items : List Value}
    {bytes : Bytes} (length : items.length = count.toNat)
    (inner : SerialAll element ctx.elements items bytes) :
    Serial (.array element count) ctx (.list items) bytes
  | map {key value : StreamType} {ctx : Context} {pairs : List (Value × Value)}
    {keys values bytes : Bytes} (count : pairs.length < 256 ^ 4)
    (allKeys : SerialAll key ctx.mapKeys (pairs.map Prod.fst) keys)
    (allValues : SerialAll value ctx.mapValues (pairs.map Prod.snd) values)
    (framed : FramedMap ctx (Bytes.bigOf 4 pairs.length ++ (keys ++ values)) bytes) :
    Serial (.map key value) ctx (.map pairs) bytes
  /-- in the layout of any version that is known -/
  | object {className : String} {ctx : Context} {layout : Layout}
    {fields : List (String × Value)} {body : Bytes}
    (known : registry.get? className layout.version.toNat = some layout)
    (plain : layout.version.toNat.testBit 14 = false) (small : 2 + body.size < 2 ^ 30)
    (inner : SerialParts (ctx.inClass className) layout.parts fields body) :
    Serial (.named className) ctx (.record fields) (counted layout.version.toNat body)

/-- the bytes are a way to write values of one type, one behind the other -/
inductive SerialAll : StreamType → Context → List Value → Bytes → Prop where
  | nil {type : StreamType} {ctx : Context} : SerialAll type ctx [] #[]
  | cons {type : StreamType} {ctx : Context} {value : Value} {values : List Value}
    {bytes more : Bytes} (first : Serial type ctx value bytes)
    (rest : SerialAll type ctx values more) : SerialAll type ctx (value :: values) (bytes ++ more)

/-- the bytes are a way to write the parts of an object, which make these fields -/
inductive SerialParts : Context → List Part → List (String × Value) → Bytes → Prop where
  | nil {ctx : Context} : SerialParts ctx [] [] #[]
  | cons {ctx : Context} {part : Part} {parts : List Part} {value : Value}
    {fields : List (String × Value)} {bytes more : Bytes}
    (first : Serial part.type (part.context ctx) value bytes)
    (rest : SerialParts ctx parts fields more) :
    SerialParts ctx (part :: parts) (part.fields value ++ fields) (bytes ++ more)

end

end

/-! ## scans -/

namespace Scan

theorem undoes_string {s : String} {bytes : Bytes} (text : WrittenText s bytes) :
    Scan.string.Undoes bytes s := by
  have taken := (undoes_take (Text.utf8 s)).map Text.lossy
  rw [Text.lossy_utf8] at taken
  unfold Scan.string
  cases text with
  | short small =>
    have byte := @undoes_unsigned 1 (Text.utf8 s).size (by omega)
    refine byte.bind ?_
    rw [if_neg (Nat.ne_of_lt small)]
    exact taken
  | long small =>
    have byte := @undoes_unsigned 1 255 (by decide)
    refine byte.bind ?_
    rw [if_pos rfl]
    exact (undoes_unsigned small).bind taken

theorem undoes_countingHeader {word size : Nat} (small : 2 + size < 2 ^ 30)
    (fits : word < 256 ^ 2) :
    versionHeader.Undoes (countingHeader word size) (.ofWords (some (2 + size)) word) := by
  have clear : (2 + size).testBit 30 = false := Nat.testBit_lt_two_pow small
  have sum : 0x40000000 ||| (2 + size) = 2 ^ 30 + (2 + size) :=
    (mark_or clear).trans (Nat.add_comm _ _)
  have header := undoes_versionHeader (small.trans (by decide)) clear fits
  rw [sum] at header
  exact header

/-- bytes that are passed over when the condition holds, and are not there otherwise -/
theorem undoes_skip_if {condition : Prop} [Decidable condition] {α : Type} {rest : Scan α} {a : α}
    {n : Nat} {bytes behind : Bytes} (size : bytes.size = if condition then n else 0)
    (then_ : rest.Undoes behind a) :
    (do
      if condition then skip n
      rest : Scan α).Undoes (bytes ++ behind) a := by
  by_cases here : condition
  · rw [if_pos here] at size ⊢
    rw [← size]
    exact (undoes_skip bytes).bind then_
  · rw [if_neg here] at size ⊢
    rw [Array.eq_empty_of_size_eq_zero size, Array.empty_append]
    exact then_

theorem undoes_objectHead {word unique bits : Nat} {count process : Bytes}
    (version : word < 256 ^ 2) (counted : count.size = if word.testBit 14 then 4 else 0)
    (number : unique < 256 ^ 4) (small : bits < 256 ^ 4)
    (referenced : process.size = if bits.testBit 4 then 2 else 0) :
    objectHead.Undoes
      (Bytes.bigOf 2 word ++ (count ++ (Bytes.bigOf 4 unique ++ (Bytes.bigOf 4 bits ++ process))))
      (unique, bits ||| 0x1000000) := by
  have sameBit : (bits ||| 0x1000000).testBit 4 = bits.testBit 4 := by
    rw [Nat.testBit_or, show Nat.testBit 0x1000000 4 = false from rfl, Bool.or_false]
  rw [← sameBit] at referenced
  have end_ := undoes_skip_if referenced (undoes_pure (unique, bits ||| 0x1000000))
  rw [Array.append_empty] at end_
  refine (undoes_unsigned version).bind ?_
  refine undoes_skip_if counted ?_
  refine (undoes_unsigned number).bind ?_
  exact (undoes_unsigned small).bind end_

end Scan

end Baskets
