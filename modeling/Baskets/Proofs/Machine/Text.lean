import Baskets.Proofs.Machine
import Baskets.Proofs.Plan.Kinds

/-!
# What the lines of a decoder mean

`Spells` says what tokens a text has, and `Command.Means` what commands: a text that ends in a blank
adds its commands to whatever block it stands in.  Meanings are put together like texts, and every
line of a decoder has one, as long as its columns are named by words of their own (`Plain`).
-/

namespace Baskets

namespace Token

/-! ## words -/

theorem words_append (front rest : List Char) {c : Char} (gap : blank c = true) :
    words (front ++ c :: rest) = words front ++ words rest := by
  unfold words
  rw [List.splitOnP_append_cons _ _ gap, List.filter_append]

theorem ofText_append (front rest : List Char) {c : Char} (gap : blank c = true) :
    ofText (front ++ c :: rest) = ofText front ++ ofText rest := by
  unfold ofText
  rw [words_append front rest gap, List.map_append]

theorem ofText_single {word : String} (some_ : word.toList ≠ [])
    (whole : ∀ c ∈ word.toList, blank c = false) : ofText word.toList = [ofWord word] := by
  unfold ofText words
  rw [List.splitOnP_eq_singleton whole]
  cases letters : word.toList with
  | nil => exact absurd letters some_
  | cons first rest =>
    show [ofWord (.ofList (first :: rest))] = _
    rw [← letters, String.ofList_toList]

theorem lookup_keywords {word : String} (other : ∀ keyword ∈ keywords, word ≠ keyword.1) :
    keywords.lookup word = none := by
  rw [List.lookup_eq_none_iff]
  intro keyword mem
  exact bne_iff_ne.2 (other keyword mem)

/-! ### numbers -/

theorem blank_of_isDigit {c : Char} (digit : c.isDigit = true) : blank c = false := by
  cases gap : blank c with
  | false => rfl
  | true =>
    rcases Bool.or_eq_true_iff.1 gap with space | line
    · rw [of_decide_eq_true space] at digit
      cases digit
    · rw [of_decide_eq_true line] at digit
      cases digit

theorem ofWord_number (n : Nat) : ofWord (toString n) = .number n := by
  have digits : (toString n).toList = Nat.toDigits 10 n := Nat.toList_repr
  have all : (Nat.toDigits 10 n).all Char.isDigit = true := by
    rw [List.all_eq_true]
    intro c mem
    exact Nat.isDigit_of_mem_toDigits (by decide) (by decide) mem
  have other : ∀ keyword ∈ keywords, toString n ≠ keyword.1 := by
    have letters : ∀ keyword ∈ keywords, keyword.1.toList.all Char.isDigit = false := by
      decide +kernel
    intro keyword mem same
    have none := letters keyword mem
    rw [← same, digits, all] at none
    cases none
  unfold ofWord
  rw [lookup_keywords other, digits]
  show (if (Nat.toDigits 10 n).all Char.isDigit = true then
    Token.number (Nat.ofDigitChars 10 (Nat.toDigits 10 n) 0) else _) = _
  rw [if_pos all, Nat.ofDigitChars_ten_toDigits]

theorem ofText_number (n : Nat) : ofText (toString n).toList = [.number n] := by
  have digits : (toString n).toList = Nat.toDigits 10 n := Nat.toList_repr
  rw [ofText_single, ofWord_number]
  · rw [digits]
    exact Nat.toDigits_ne_nil
  · rw [digits]
    intro c mem
    exact blank_of_isDigit (Nat.isDigit_of_mem_toDigits (by decide) (by decide) mem)

/-! ### names -/

/-- the name is a word of its own, told from all other words by its first letter -/
structure Plain (name : String) : Prop where
  first : name.toList.head? = some 'n'
  whole : ∀ c ∈ name.toList, blank c = false

theorem Plain.append {name : String} (plain : Plain name) {ending : String}
    (whole : ending.toList.any blank = false) : Plain (name ++ ending) := by
  refine ⟨?_, fun c mem => ?_⟩
  · rw [String.toList_append, List.head?_append, plain.first]
    rfl
  · rw [String.toList_append] at mem
    rcases List.mem_append.1 mem with mem | mem
    · exact plain.whole c mem
    · exact eq_false_of_ne_true (List.any_eq_false.1 whole c mem)

theorem Plain.offsets {key : String} (plain : Plain key) : Plain (key ++ "-offsets") :=
  plain.append rfl

theorem Plain.data {key : String} (plain : Plain key) : Plain (key ++ "-data") :=
  plain.append rfl

theorem plain_name (place : Place) : Plain place.name := by
  refine ⟨?_, fun c mem => ?_⟩
  · rw [Place.toList_name]
    rfl
  · rw [Place.toList_name] at mem
    rcases List.mem_append.1 mem with letter | digit
    · have whole : ['n', 'o', 'd', 'e'].any blank = false := rfl
      exact eq_false_of_ne_true (List.any_eq_false.1 whole c letter)
    · exact blank_of_isDigit (Nat.isDigit_of_mem_toDigits (by decide) (by decide) digit)

theorem ofText_name {name : String} (plain : Plain name) : ofText name.toList = [.name name] := by
  have other : ∀ keyword ∈ keywords, name ≠ keyword.1 := by
    have letters : ∀ keyword ∈ keywords, keyword.1.toList.head? ≠ some 'n' := by decide +kernel
    intro keyword mem same
    exact letters keyword mem (same ▸ plain.first)
  have letter : name.toList.all Char.isDigit = false := by
    have first := plain.first
    cases letters : name.toList with
    | nil =>
      rw [letters] at first
      cases first
    | cons c rest =>
      rw [letters] at first
      cases first
      rfl
  rw [ofText_single]
  · unfold ofWord
    rw [lookup_keywords other]
    show [if name.toList.all Char.isDigit = true then _ else Token.name name] = _
    rw [letter]
    rfl
  · intro none
    have first := plain.first
    rw [none] at first
    cases first
  · exact plain.whole

/-! ## texts -/

/-- the tokens of a text, whatever comes behind it -/
def Spells (text : String) (tokens : List Token) : Prop :=
  ∀ rest : List Char, ofText (text.toList ++ rest) = tokens ++ ofText rest

theorem Spells.append {text more : String} {tokens others : List Token}
    (first : Spells text tokens) (second : Spells more others) :
    Spells (text ++ more) (tokens ++ others) := by
  intro rest
  rw [String.toList_append, List.append_assoc, first, second, List.append_assoc]

theorem spells_gap {word : String} {tokens : List Token} (own : ofText word.toList = tokens) :
    Spells (word ++ " ") tokens := by
  intro rest
  rw [String.toList_append, List.append_assoc]
  show ofText (word.toList ++ ' ' :: rest) = _
  rw [ofText_append _ _ (by decide), own]

theorem spells_line {word : String} {tokens : List Token} (own : ofText word.toList = tokens) :
    Spells (word ++ "\n") tokens := by
  intro rest
  rw [String.toList_append, List.append_assoc]
  show ofText (word.toList ++ '\n' :: rest) = _
  rw [ofText_append _ _ (by decide), own]

end Token

/-! ## lines -/

namespace Instruction

/-- the columns that an instruction names -/
def keys : Instruction → List String
  | .zero offsets | .length offsets => [offsets]
  | .number _ data | .numbers _ data | .block _ _ data | .referenceCount data => [data]
  | .text offsets chars => [offsets, chars]
  | .references offsets data => [offsets, data]
  | .skip _ | .loopTaking | .loopKeeping | .loopTimes _ | .loopEnd => []

def tokens : Instruction → List Token
  | .zero offsets => [.number 0, .name (offsets ++ "-offsets"), .append, .stack]
  | .skip bytes => [.number bytes, .stream, .skip]
  | .number p data => [.stream, .read p, .name (data ++ "-data")]
  | .numbers p data => [.stream, .readMany p, .name (data ++ "-data")]
  | .block count p data => [.number count, .stream, .readMany p, .name (data ++ "-data")]
  | .length offsets =>
    [.stream, .read .uint32, .stack, .dup, .name (offsets ++ "-offsets"), .accumulate, .stack]
  | .text offsets chars =>
    [.stream, .read .uint8, .stack, .dup, .number 255, .equal, .opening .when, .drop, .stream,
      .read .uint32, .stack, .closing .when, .dup, .name (offsets ++ "-offsets"), .accumulate,
      .stack, .stream, .readMany .uint8, .name (chars ++ "-data")]
  | .referenceCount data =>
    [.stream, .read .int32, .stack, .dup, .name (data ++ "-data"), .append, .stack]
  | .references offsets data =>
    [.dup, .name (offsets ++ "-offsets"), .accumulate, .stack, .stream, .readMany .int32,
      .name (data ++ "-data")]
  | .loopTaking => [.number 0, .opening .loop]
  | .loopKeeping => [.dup, .number 0, .opening .loop]
  | .loopTimes count => [.number count, .number 0, .opening .loop]
  | .loopEnd => [.closing .loop]

section
open Token

theorem ofText_read (p : Primitive) : ofText ("!" ++ p.code ++ "->").toList = [.read p] := by
  cases p <;> rfl

theorem ofText_readMany (p : Primitive) : ofText ("#!" ++ p.code ++ "->").toList = [.readMany p] := by
  cases p <;> rfl

theorem spells_zero {offsets : String} (plain : Plain offsets) :
    Spells (line (.zero offsets)) (tokens (.zero offsets)) := by
  have zero : ofText "0".toList = [.number 0] := rfl
  have store : ofText "<- stack".toList = [.append, .stack] := rfl
  have words : line (.zero offsets) =
      "0" ++ " " ++ (offsets ++ "-offsets" ++ " " ++ ("<- stack" ++ "\n")) := by
    have back : "-offsets <- stack" = "-offsets" ++ " " ++ "<- stack" := by decide
    show "0 " ++ offsets ++ "-offsets <- stack" ++ "\n" = _
    rw [back]
    simp only [String.append_assoc]
    rfl
  rw [words]
  exact (spells_gap zero).append ((spells_gap (ofText_name plain.offsets)).append (spells_line store))

theorem spells_skip (bytes : Nat) : Spells (line (.skip bytes)) (tokens (.skip bytes)) := by
  have move : ofText "stream skip".toList = [.stream, .skip] := rfl
  have words : line (.skip bytes) = toString bytes ++ " " ++ ("stream skip" ++ "\n") := by
    have back : " stream skip" = " " ++ "stream skip" := by decide
    show toString bytes ++ " stream skip" ++ "\n" = _
    rw [back]
    simp only [String.append_assoc]
  rw [words]
  exact (spells_gap (ofText_number bytes)).append (spells_line move)

theorem spells_number (p : Primitive) {data : String} (plain : Plain data) :
    Spells (line (.number p data)) (tokens (.number p data)) := by
  have input : ofText "stream".toList = [.stream] := rfl
  have words : line (.number p data) =
      "stream" ++ " " ++ ("!" ++ p.code ++ "->" ++ " " ++ (data ++ "-data" ++ "\n")) := by
    have front : "stream !" = "stream" ++ " " ++ "!" := by decide
    have back : "-> " = "->" ++ " " := by decide
    show "stream !" ++ p.code ++ "-> " ++ data ++ "-data" ++ "\n" = _
    rw [front, back]
    simp only [String.append_assoc]
  rw [words]
  exact (spells_gap input).append
    ((spells_gap (ofText_read p)).append (spells_line (ofText_name plain.data)))

theorem spells_many (p : Primitive) {data : String} (plain : Plain data) :
    Spells ("stream #!" ++ p.code ++ "-> " ++ data ++ "-data" ++ "\n")
      [.stream, .readMany p, .name (data ++ "-data")] := by
  have input : ofText "stream".toList = [.stream] := rfl
  have words : "stream #!" ++ p.code ++ "-> " ++ data ++ "-data" ++ "\n" =
      "stream" ++ " " ++ ("#!" ++ p.code ++ "->" ++ " " ++ (data ++ "-data" ++ "\n")) := by
    have front : "stream #!" = "stream" ++ " " ++ "#!" := by decide
    have back : "-> " = "->" ++ " " := by decide
    rw [front, back]
    simp only [String.append_assoc]
  rw [words]
  exact (spells_gap input).append
    ((spells_gap (ofText_readMany p)).append (spells_line (ofText_name plain.data)))

theorem spells_block (count : Nat) (p : Primitive) {data : String} (plain : Plain data) :
    Spells (line (.block count p data)) (tokens (.block count p data)) := by
  have words : line (.block count p data) = toString count ++ " " ++
      ("stream #!" ++ p.code ++ "-> " ++ data ++ "-data" ++ "\n") := by
    have front : " stream #!" = " " ++ "stream #!" := by decide
    show toString count ++ " stream #!" ++ p.code ++ "-> " ++ data ++ "-data" ++ "\n" = _
    rw [front]
    simp only [String.append_assoc]
  rw [words]
  exact (spells_gap (ofText_number count)).append (spells_many p plain)

theorem spells_length {offsets : String} (plain : Plain offsets) :
    Spells (line (.length offsets)) (tokens (.length offsets)) := by
  have count : ofText "stream !I-> stack\ndup".toList =
      [.stream, .read .uint32, .stack, .dup] := rfl
  have store : ofText "+<- stack".toList = [.accumulate, .stack] := rfl
  have words : line (.length offsets) = "stream !I-> stack\ndup" ++ " " ++
      (offsets ++ "-offsets" ++ " " ++ ("+<- stack" ++ "\n")) := by
    have front : "stream !I-> stack\ndup " = "stream !I-> stack\ndup" ++ " " := by decide
    have back : "-offsets +<- stack" = "-offsets" ++ " " ++ "+<- stack" := by decide
    show "stream !I-> stack\ndup " ++ offsets ++ "-offsets +<- stack" ++ "\n" = _
    rw [front, back]
    simp only [String.append_assoc]
  rw [words]
  exact (spells_gap count).append
    ((spells_gap (ofText_name plain.offsets)).append (spells_line store))

theorem spells_text {offsets chars : String} (plain : Plain offsets) (plainChars : Plain chars) :
    Spells (line (.text offsets chars)) (tokens (.text offsets chars)) := by
  have count : ofText "stream !B-> stack dup 255 = if drop stream !I-> stack then dup".toList =
      [.stream, .read .uint8, .stack, .dup, .number 255, .equal, .opening .when, .drop, .stream,
        .read .uint32, .stack, .closing .when, .dup] := rfl
  have store : ofText "+<- stack stream #!B->".toList =
      [.accumulate, .stack, .stream, .readMany .uint8] := rfl
  have words : line (.text offsets chars) =
      "stream !B-> stack dup 255 = if drop stream !I-> stack then dup" ++ " " ++
        (offsets ++ "-offsets" ++ " " ++ ("+<- stack stream #!B->" ++ " " ++
          (chars ++ "-data" ++ "\n"))) := by
    have front : "stream !B-> stack dup 255 = if drop stream !I-> stack then dup " =
        "stream !B-> stack dup 255 = if drop stream !I-> stack then dup" ++ " " := by decide
    have back : "-offsets +<- stack stream #!B-> " =
        "-offsets" ++ " " ++ "+<- stack stream #!B->" ++ " " := by decide
    show "stream !B-> stack dup 255 = if drop stream !I-> stack then dup " ++ offsets ++
      "-offsets +<- stack stream #!B-> " ++ chars ++ "-data" ++ "\n" = _
    rw [front, back]
    simp only [String.append_assoc]
  rw [words]
  exact (spells_gap count).append ((spells_gap (ofText_name plain.offsets)).append
    ((spells_gap store).append (spells_line (ofText_name plainChars.data))))

theorem spells_referenceCount {data : String} (plain : Plain data) :
    Spells (line (.referenceCount data)) (tokens (.referenceCount data)) := by
  have count : ofText "stream !i-> stack dup".toList = [.stream, .read .int32, .stack, .dup] := rfl
  have store : ofText "<- stack".toList = [.append, .stack] := rfl
  have words : line (.referenceCount data) = "stream !i-> stack dup" ++ " " ++
      (data ++ "-data" ++ " " ++ ("<- stack" ++ "\n")) := by
    have front : "stream !i-> stack dup " = "stream !i-> stack dup" ++ " " := by decide
    have back : "-data <- stack" = "-data" ++ " " ++ "<- stack" := by decide
    show "stream !i-> stack dup " ++ data ++ "-data <- stack" ++ "\n" = _
    rw [front, back]
    simp only [String.append_assoc]
  rw [words]
  exact (spells_gap count).append ((spells_gap (ofText_name plain.data)).append (spells_line store))

theorem spells_references {offsets data : String} (plain : Plain offsets)
    (plainData : Plain data) :
    Spells (line (.references offsets data)) (tokens (.references offsets data)) := by
  have twice : ofText "dup".toList = [.dup] := rfl
  have store : ofText "+<- stack stream #!i->".toList =
      [.accumulate, .stack, .stream, .readMany .int32] := rfl
  have words : line (.references offsets data) = "dup" ++ " " ++
      (offsets ++ "-offsets" ++ " " ++ ("+<- stack stream #!i->" ++ " " ++
        (data ++ "-data" ++ "\n"))) := by
    have front : "dup " = "dup" ++ " " := by decide
    have back : "-offsets +<- stack stream #!i-> " =
        "-offsets" ++ " " ++ "+<- stack stream #!i->" ++ " " := by decide
    show "dup " ++ offsets ++ "-offsets +<- stack stream #!i-> " ++ data ++ "-data" ++ "\n" = _
    rw [front, back]
    simp only [String.append_assoc]
  rw [words]
  exact (spells_gap twice).append ((spells_gap (ofText_name plain.offsets)).append
    ((spells_gap store).append (spells_line (ofText_name plainData.data))))

theorem spells_loopTimes (count : Nat) :
    Spells (line (.loopTimes count)) (tokens (.loopTimes count)) := by
  have loop : ofText "0 do".toList = [.number 0, .opening .loop] := rfl
  have words : line (.loopTimes count) = toString count ++ " " ++ ("0 do" ++ "\n") := by
    have back : " 0 do" = " " ++ "0 do" := by decide
    show toString count ++ " 0 do" ++ "\n" = _
    rw [back]
    simp only [String.append_assoc]
  rw [words]
  exact (spells_gap (ofText_number count)).append (spells_line loop)

/-- every line has its tokens -/
theorem spells_tokens (instruction : Instruction)
    (plain : ∀ key ∈ instruction.keys, Plain key) : Spells instruction.line instruction.tokens := by
  cases instruction with
  | zero offsets => exact spells_zero (plain offsets List.mem_cons_self)
  | skip bytes => exact spells_skip bytes
  | number p data => exact spells_number p (plain data List.mem_cons_self)
  | numbers p data => exact spells_many p (plain data List.mem_cons_self)
  | block count p data => exact spells_block count p (plain data List.mem_cons_self)
  | length offsets => exact spells_length (plain offsets List.mem_cons_self)
  | text offsets chars =>
    exact spells_text (plain offsets List.mem_cons_self)
      (plain chars (List.mem_cons_of_mem _ List.mem_cons_self))
  | referenceCount data => exact spells_referenceCount (plain data List.mem_cons_self)
  | references offsets data =>
    exact spells_references (plain offsets List.mem_cons_self)
      (plain data (List.mem_cons_of_mem _ List.mem_cons_self))
  | loopTaking => exact spells_line rfl
  | loopKeeping => exact spells_line rfl
  | loopTimes count => exact spells_loopTimes count
  | loopEnd => exact spells_line rfl

end

/-! ## commands -/

/-- what an instruction does; a loop is begun by what is done before it -/
def commands : Instruction → List Command
  | .zero offsets => [.push 0, .append (offsets ++ "-offsets")]
  | .skip bytes => [.push bytes, .skip]
  | .number p data => [.read p (data ++ "-data")]
  | .numbers p data => [.readMany p (data ++ "-data")]
  | .block count p data => [.push count, .readMany p (data ++ "-data")]
  | .length offsets => [.take .uint32, .dup, .accumulate (offsets ++ "-offsets")]
  | .text offsets chars =>
    [.take .uint8, .dup, .push 255, .equal, .when [.drop, .take .uint32], .dup,
      .accumulate (offsets ++ "-offsets"), .readMany .uint8 (chars ++ "-data")]
  | .referenceCount data => [.take .int32, .dup, .append (data ++ "-data")]
  | .references offsets data =>
    [.dup, .accumulate (offsets ++ "-offsets"), .readMany .int32 (data ++ "-data")]
  | .loopTaking => [.push 0]
  | .loopKeeping => [.dup, .push 0]
  | .loopTimes count => [.push count, .push 0]
  | .loopEnd => []

def isStep : Instruction → Bool
  | .loopTaking | .loopKeeping | .loopTimes _ | .loopEnd => false
  | _ => true

def isLoop : Instruction → Bool
  | .loopTaking | .loopKeeping | .loopTimes _ => true
  | _ => false

end Instruction

namespace Command

variable {text more : String} {commands others : List Command} {instruction : Instruction}

/-- the text adds the commands to the block it stands in -/
def Means (text : String) (commands : List Command) : Prop :=
  ∀ (rest : List Char) (done : List Command) (outer : List (Block × List Command)),
    parse (Token.ofText (text.toList ++ rest)) done outer =
      parse (Token.ofText rest) (done ++ commands) outer

theorem means_empty : Means "" [] := by
  intro rest done outer
  rw [List.append_nil]
  rfl

theorem Means.append (first : Means text commands) (second : Means more others) :
    Means (text ++ more) (commands ++ others) := by
  intro rest done outer
  rw [String.toList_append, List.append_assoc, first, second, List.append_assoc]

theorem means_step (step : instruction.isStep = true)
    (plain : ∀ key ∈ instruction.keys, Token.Plain key) :
    Means instruction.line instruction.commands := by
  intro rest done outer
  rw [instruction.spells_tokens plain]
  cases instruction with
  | loopTaking | loopKeeping | loopTimes | loopEnd => cases step
  | _ =>
    unfold Instruction.tokens Instruction.commands
    simp [parse, ofBlock]

theorem means_loop (loop : instruction.isLoop = true) (inner : Means text commands) :
    Means (instruction.line ++ text ++ Instruction.line .loopEnd)
      (instruction.commands ++ [.loop commands]) := by
  intro rest done outer
  have opens : ∀ rest, parse (Token.ofText (instruction.line.toList ++ rest)) done outer =
      parse (Token.ofText rest) [] ((.loop, done ++ instruction.commands) :: outer) := by
    intro rest
    have none : ∀ key ∈ instruction.keys, Token.Plain key := by
      cases instruction <;> cases loop <;> exact nofun
    rw [instruction.spells_tokens none]
    cases instruction with
    | loopTaking | loopKeeping | loopTimes =>
      unfold Instruction.tokens Instruction.commands
      simp [parse]
    | _ => cases loop
  rw [String.toList_append, String.toList_append, List.append_assoc, List.append_assoc, opens,
    inner, Instruction.spells_tokens .loopEnd nofun]
  show parse (Token.closing .loop :: Token.ofText rest) commands _ = _
  simp [parse, ofBlock]

/-- a text that means something runs as it means -/
theorem Means.run (means : Means text commands) (m : Machine) :
    m.run text = execAll commands m := by
  have whole := means [] [] []
  rw [List.append_nil] at whole
  have parsed : parse (Token.ofText text.toList) [] [] = some commands := whole
  unfold Machine.run
  rw [parsed]
  rfl

end Command

end Baskets
