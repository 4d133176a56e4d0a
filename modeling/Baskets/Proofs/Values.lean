import Baskets.Interpretation
import Baskets.Proofs.Basket.InFile

/-!
# The values of a basket, entry by entry

A basket cuts its data twice: `Basket.entries` goes along the bounds, and `Basket.entry?` looks two
of them up.  The bounds are numbers from a file; they may go down, or beyond the data.  Decoding only
promises that there is one more of them than there are entries (`Basket.Decoded.bounds`), and that is
enough: the values of the basket are those of its entries, each read by itself, and its fault is that
of the first entry that has none.
-/

namespace Baskets

namespace Basket

/-! ## decoded baskets -/

/-- the ways in which a basket comes about -/
inductive Decoded (codecs : Algorithm → Codec) : Basket → Prop where
  | ofHeader {ctx : BasketContext} {header : BasketHeader} {basket : Basket} {c d : Cursor}
    (ran : (ofHeader codecs ctx header).run c = (.ok basket, d)) : Decoded codecs basket
  | decode {ctx : BasketContext} {bytes : Bytes} {basket : Basket}
    (ran : decode codecs ctx bytes = .ok basket) : Decoded codecs basket
  | readAt {ctx : BasketContext} {file : Bytes} {pos : Nat} {basket : Basket}
    (ran : readAt codecs ctx file pos = .ok basket) : Decoded codecs basket
  | readAll {readContents : Bool} {file : Bytes} {positions : List Nat} {baskets : List Basket}
    {basket : Basket} (ran : readAll codecs readContents file positions = .ok baskets)
    (mem : basket ∈ baskets) : Decoded codecs basket

section
variable {codecs : Algorithm → Codec} {basket : Basket}

theorem exists_readAt {readContents : Bool} {file : Bytes} {first : Nat} {positions : List Nat}
    {baskets : List Basket} (ran : readFrom codecs readContents file first positions = .ok baskets)
    (mem : basket ∈ baskets) : ∃ ctx pos, readAt codecs ctx file pos = .ok basket := by
  induction positions generalizing first baskets with
  | nil =>
    cases ran
    cases mem
  | cons pos rest ih =>
    unfold readFrom at ran
    obtain ⟨here, one, ran⟩ := bind_ok ran
    obtain ⟨others, all, ran⟩ := bind_ok ran
    cases ran
    cases mem with
    | head => exact ⟨_, _, one⟩
    | tail _ mem => exact ih all mem

theorem exists_ofHeader {ctx : BasketContext} {bytes : Bytes}
    (ran : decode codecs ctx bytes = .ok basket) :
    ∃ header c d, (ofHeader codecs ctx header).run c = (.ok basket, d) := by
  have ran : ((BasketHeader.scan >>= ofHeader codecs ctx).run { data := bytes }).1 = .ok basket :=
    ran
  cases whole : (BasketHeader.scan >>= ofHeader codecs ctx).run { data := bytes } with
  | mk result d =>
    rw [whole] at ran
    obtain rfl : result = .ok basket := ran
    obtain ⟨header, c, -, rest⟩ := Scan.run_bind_ok whole
    exact ⟨header, c, d, rest⟩

theorem Decoded.exists_ofHeader (decoded : basket.Decoded codecs) :
    ∃ ctx header c d, (Basket.ofHeader codecs ctx header).run c = (.ok basket, d) := by
  cases decoded with
  | ofHeader ran => exact ⟨_, _, _, _, ran⟩
  | decode ran => exact ⟨_, Basket.exists_ofHeader ran⟩
  | readAt ran => exact ⟨_, Basket.exists_ofHeader (decode_of_readAt ran)⟩
  | readAll ran mem =>
    obtain ⟨ctx, pos, ran⟩ := exists_readAt ran mem
    exact ⟨ctx, Basket.exists_ofHeader (decode_of_readAt ran)⟩

/-- a basket with bounds has one more of them than entries, and data -/
theorem Decoded.bounds (decoded : basket.Decoded codecs) {offsets : List Nat}
    (bounds : basket.offsets = some offsets) :
    offsets.length = basket.size + 1 ∧ ∃ data, basket.data = some data := by
  obtain ⟨ctx, header, c, d, ran⟩ := decoded.exists_ofHeader
  cases read : ctx.readContents with
  | true =>
    obtain ⟨-, contents, there, wellFormed⟩ := wellFormed_ofHeader read ran
    unfold Basket.offsets at bounds
    rw [there] at bounds
    refine ⟨(wellFormed.bounds offsets bounds).1, contents.data, ?_⟩
    unfold Basket.data
    rw [there]
    rfl
  | false =>
    -- without contents there are no bounds
    unfold Basket.ofHeader at ran
    rw [if_neg (by rw [read]; exact Bool.false_ne_true)] at ran
    cases ran
    cases bounds

/-- a basket by what was decoded of it -/
theorem exists_of_parts {bytes data : Bytes} {size : Nat} {offsets : List Nat}
    (parts : (decode codecs {} bytes).map (fun basket =>
      (basket.size, basket.offsets, basket.data)) = .ok (size, some offsets, some data)) :
    ∃ basket, decode codecs {} bytes = .ok basket ∧ basket.size = size ∧
      basket.offsets = some offsets ∧ basket.data = some data := by
  cases decoded : decode codecs {} bytes with
  | error fault =>
    rw [decoded] at parts
    cases parts
  | ok basket =>
    rw [decoded] at parts
    obtain ⟨size_, rest⟩ := Prod.mk.inj (Except.ok.inj parts)
    exact ⟨basket, rfl, size_, Prod.mk.inj rest⟩

end

/-! ## bounds -/

/-- the bytes between two bounds, or why there are none -/
def cut (data : Bytes) (start stop : Nat) : Except Fault Bytes :=
  match slice? data start stop with
  | some bytes => .ok bytes
  | none => .error (.malformed (.entryRange start stop data.size))

variable {basket : Basket} {data bytes : Bytes} {offsets : List Nat} {start stop i : Nat}
  {fault : Fault} {entry : Except Fault Bytes}

theorem cut_eq_ok_iff : cut data start stop = .ok bytes ↔ slice? data start stop = some bytes := by
  unfold cut
  cases slice? data start stop with
  | none => exact iff_of_false nofun nofun
  | some found => rw [Except.ok.injEq, Option.some.injEq]

theorem cut_eq_error_iff : cut data start stop = .error fault ↔
    (stop < start ∨ data.size < stop) ∧
      fault = .malformed (.entryRange start stop data.size) := by
  unfold cut slice?
  split
  · rename_i found
    split at found
    · refine iff_of_false nofun fun bad => ?_
      omega
    · cases found
  · rename_i none_
    split at none_
    · cases none_
    · rename_i outside
      rw [Except.error.injEq, eq_comm, and_iff_right]
      omega

@[simp] theorem between_cons (data : Bytes) (start stop : Nat) (rest : List Nat) :
    between data (start :: stop :: rest) = cut data start stop :: between data (stop :: rest) := rfl

@[simp] theorem length_between (data : Bytes) (offsets : List Nat) :
    (between data offsets).length = offsets.length - 1 := by
  induction offsets with
  | nil => rfl
  | cons start rest ih =>
    cases rest with
    | nil => rfl
    | cons stop rest =>
      simp [ih]

/-- going along the bounds and looking two of them up comes to the same -/
theorem getElem?_between : (between data offsets)[i]? = some entry ↔
    ∃ start stop, offsets[i]? = some start ∧ offsets[i + 1]? = some stop ∧
      cut data start stop = entry := by
  induction offsets generalizing i with
  | nil => exact iff_of_false nofun nofun
  | cons start rest ih =>
    cases rest with
    | nil => exact iff_of_false nofun fun ⟨_, _, _, there, _⟩ => nomatch there
    | cons stop rest =>
      rw [between_cons]
      cases i with
      | zero =>
        constructor
        · intro here
          exact ⟨start, stop, rfl, rfl, Option.some.inj here⟩
        · rintro ⟨_, _, ⟨⟩, ⟨⟩, rfl⟩
          rfl
      | succ i => exact ih

/-! ### one entry -/

/-- the bounds of an entry go down, or beyond the data -/
inductive Outside (basket : Basket) (i : Nat) : Fault → Prop where
  | range {data : Bytes} {offsets : List Nat} {start stop : Nat} (data_ : basket.data = some data)
    (offsets_ : basket.offsets = some offsets) (start_ : offsets[i]? = some start)
    (stop_ : offsets[i + 1]? = some stop) (bad : stop < start ∨ data.size < stop) :
    Outside basket i (.malformed (.entryRange start stop data.size))

section
variable (data_ : basket.data = some data) (offsets_ : basket.offsets = some offsets)
include data_ offsets_

theorem entries_eq : basket.entries = .ok (between data offsets) := by
  unfold entries
  rw [data_, offsets_]

theorem entry?_eq_some_iff : basket.entry? i = some bytes ↔
    ∃ start stop, offsets[i]? = some start ∧ offsets[i + 1]? = some stop ∧
      slice? data start stop = some bytes := by
  have two : basket.entry? i = offsets[i]?.bind fun start =>
      offsets[i + 1]?.bind fun stop => slice? data start stop := by
    unfold entry?
    rw [data_, offsets_]
    rfl
  rw [two, Option.bind_eq_some_iff]
  refine exists_congr fun start => ?_
  rw [Option.bind_eq_some_iff, exists_and_left]

theorem between_eq_ok_iff :
    (between data offsets)[i]? = some (.ok bytes) ↔ basket.entry? i = some bytes := by
  rw [getElem?_between, entry?_eq_some_iff data_ offsets_]
  simp only [cut_eq_ok_iff]

theorem between_eq_error_iff :
    (between data offsets)[i]? = some (.error fault) ↔ basket.Outside i fault := by
  rw [getElem?_between]
  simp only [cut_eq_error_iff]
  constructor
  · rintro ⟨start, stop, start_, stop_, bad, rfl⟩
    exact .range data_ offsets_ start_ stop_ bad
  · rintro ⟨data', offsets', start_, stop_, bad⟩
    obtain rfl := Option.some.inj (data_.symm.trans data')
    obtain rfl := Option.some.inj (offsets_.symm.trans offsets')
    exact ⟨_, _, start_, stop_, bad, rfl⟩

end

end Basket

/-! ## values -/

namespace Interpretation

section
variable {interpretation : Interpretation} {list : List (Except Fault Bytes)}
  {entry : Except Fault Bytes} {values : List Value} {value : Value} {fault : Fault}

/-- the value of an entry by itself -/
def readEntry (interpretation : Interpretation) (entry : Except Fault Bytes) : Except Fault Value := do
  (interpretation.read (← entry) none).1

theorem values_cons (interpretation : Interpretation) (entry : Except Fault Bytes)
    (list : List (Except Fault Bytes)) :
    interpretation.values (entry :: list) = (do
      let value ← interpretation.readEntry entry
      return value :: (← interpretation.values list)) := by
  cases entry <;> rfl

theorem values_eq_ok_iff_forall₂ : interpretation.values list = .ok values ↔
    List.Forall₂ (fun entry value => interpretation.readEntry entry = .ok value) list values := by
  induction list generalizing values with
  | nil =>
    rw [List.forall₂_nil_left_iff]
    exact ⟨fun read => (Except.ok.inj read).symm, congrArg Except.ok ∘ Eq.symm⟩
  | cons entry rest ih =>
    rw [values_cons, List.forall₂_cons_left_iff]
    constructor
    · intro read
      obtain ⟨value, one, read⟩ := bind_ok read
      obtain ⟨others, all, read⟩ := bind_ok read
      exact ⟨value, others, one, ih.1 all, (Except.ok.inj read).symm⟩
    · rintro ⟨value, others, one, all, rfl⟩
      simp [one, ih.2 all]

/-- there are as many values as entries, and each is that of its entry -/
theorem values_eq_ok_iff : interpretation.values list = .ok values ↔
    values.length = list.length ∧ ∀ i < list.length, ∃ value, values[i]? = some value ∧
      ∃ entry, list[i]? = some entry ∧ interpretation.readEntry entry = .ok value := by
  rw [values_eq_ok_iff_forall₂, List.forall₂_iff_get, eq_comm]
  refine and_congr_right fun size => ⟨fun each i inside => ?_, fun each i inside inside' => ?_⟩
  · have inside' : i < values.length := size ▸ inside
    exact ⟨_, List.getElem?_eq_getElem inside', _, List.getElem?_eq_getElem inside,
      each i inside inside'⟩
  · obtain ⟨value, value_, entry, entry_, one⟩ := each i inside
    obtain ⟨_, rfl⟩ := List.getElem?_eq_some_iff.1 value_
    obtain ⟨_, rfl⟩ := List.getElem?_eq_some_iff.1 entry_
    exact one

/-- the fault is that of the first entry that has one -/
theorem values_eq_error_iff : interpretation.values list = .error fault ↔
    ∃ i < list.length, (∀ j < i, ∃ value entry, list[j]? = some entry ∧
        interpretation.readEntry entry = .ok value) ∧
      ∃ entry, list[i]? = some entry ∧ interpretation.readEntry entry = .error fault := by
  induction list with
  | nil => exact iff_of_false nofun fun ⟨_, inside, _⟩ => nomatch inside
  | cons entry rest ih =>
    rw [values_cons]
    cases first : interpretation.readEntry entry with
    | error other =>
      constructor
      · rintro ⟨⟩
        exact ⟨0, Nat.zero_lt_succ _, nofun, entry, rfl, first⟩
      · rintro ⟨i, inside, before, here⟩
        cases i with
        | zero =>
          obtain ⟨_, ⟨⟩, failed⟩ := here
          rw [first] at failed
          cases failed
          rfl
        | succ i =>
          obtain ⟨value, _, ⟨⟩, read⟩ := before 0 (Nat.zero_lt_succ i)
          rw [first] at read
          cases read
    | ok value =>
      rw [ok_bind]
      have later : (do return value :: (← interpretation.values rest) : Except Fault (List Value)) =
          .error fault ↔ interpretation.values rest = .error fault := by
        cases interpretation.values rest with
        | error other => exact Iff.rfl
        | ok others => exact iff_of_false nofun nofun
      rw [later, ih]
      constructor
      · rintro ⟨i, inside, before, here⟩
        refine ⟨i + 1, Nat.succ_lt_succ inside, fun j below => ?_, here⟩
        cases j with
        | zero => exact ⟨value, entry, rfl, first⟩
        | succ j => exact before j (Nat.lt_of_succ_lt_succ below)
      · rintro ⟨i, inside, before, here⟩
        cases i with
        | zero =>
          obtain ⟨_, ⟨⟩, failed⟩ := here
          rw [first] at failed
          cases failed
        | succ i =>
          exact ⟨i, Nat.lt_of_succ_lt_succ inside,
            fun j below => before (j + 1) (Nat.succ_lt_succ below), here⟩

end

/-! ## baskets -/

/-- the value of an entry that is looked up, read from the top and without a generator -/
def GivesAt (interpretation : Interpretation) (basket : Basket) (i : Nat) (value : Value) : Prop :=
  ∃ entry, basket.entry? i = some entry ∧ (interpretation.read entry none).1 = .ok value

/-- why there is no value of an entry: its bytes are none, or not to be read -/
inductive FailsAt (interpretation : Interpretation) (basket : Basket) (i : Nat) : Fault → Prop where
  | outside {fault : Fault} (outside : basket.Outside i fault) : FailsAt interpretation basket i fault
  | read {entry : Bytes} {fault : Fault} (found : basket.entry? i = some entry)
    (failed : (interpretation.read entry none).1 = .error fault) :
    FailsAt interpretation basket i fault

section
variable {interpretation : Interpretation} {basket : Basket} {data : Bytes} {offsets : List Nat}
  {i : Nat} {value : Value} {fault : Fault} (data_ : basket.data = some data)
  (offsets_ : basket.offsets = some offsets)
include data_ offsets_

theorem readEntry_eq_ok_iff : (∃ entry, (Basket.between data offsets)[i]? = some entry ∧
    interpretation.readEntry entry = .ok value) ↔ interpretation.GivesAt basket i value := by
  constructor
  · rintro ⟨entry, there, read⟩
    obtain ⟨bytes, rfl, read⟩ := bind_ok read
    exact ⟨bytes, (Basket.between_eq_ok_iff data_ offsets_).1 there, read⟩
  · rintro ⟨bytes, found, read⟩
    exact ⟨.ok bytes, (Basket.between_eq_ok_iff data_ offsets_).2 found, read⟩

theorem readEntry_eq_error_iff : (∃ entry, (Basket.between data offsets)[i]? = some entry ∧
    interpretation.readEntry entry = .error fault) ↔ interpretation.FailsAt basket i fault := by
  constructor
  · rintro ⟨entry, there, failed⟩
    cases entry with
    | error other =>
      cases failed
      exact .outside ((Basket.between_eq_error_iff data_ offsets_).1 there)
    | ok bytes => exact .read ((Basket.between_eq_ok_iff data_ offsets_).1 there) failed
  · rintro (outside | ⟨found, failed⟩)
    · exact ⟨.error fault, (Basket.between_eq_error_iff data_ offsets_).2 outside, rfl⟩
    · exact ⟨.ok _, (Basket.between_eq_ok_iff data_ offsets_).2 found, failed⟩

end

/-- **The values of a basket are those of its entries.**  Of a decoded basket with bounds there are
values exactly when each entry that is looked up can be read by itself, and then they are what these
give; else the fault is that of the first entry without a value. -/
theorem interpret_by_entry {codecs : Algorithm → Codec} {basket : Basket} {offsets : List Nat}
    (decoded : basket.Decoded codecs) (bounds : basket.offsets = some offsets)
    (interpretation : Interpretation) :
    (∀ values, interpretation.interpret basket = .ok values ↔
      values.length = basket.size ∧ ∀ i < basket.size, ∃ value, values[i]? = some value ∧
        interpretation.GivesAt basket i value) ∧
    ∀ fault, interpretation.interpret basket = .error fault ↔
      ∃ i < basket.size, (∀ j < i, ∃ value, interpretation.GivesAt basket j value) ∧
        interpretation.FailsAt basket i fault := by
  obtain ⟨count, data, data_⟩ := decoded.bounds bounds
  have length : (Basket.between data offsets).length = basket.size := by
    rw [Basket.length_between, count, Nat.add_sub_cancel]
  have all : interpretation.interpret basket =
      interpretation.values (Basket.between data offsets) := by
    unfold interpret
    simp [Basket.entries_eq data_ bounds]
  refine ⟨fun values => ?_, fun fault => ?_⟩
  · rw [all, values_eq_ok_iff, length]
    simp only [readEntry_eq_ok_iff data_ bounds]
  · rw [all, values_eq_error_iff, length]
    simp only [readEntry_eq_ok_iff data_ bounds, readEntry_eq_error_iff data_ bounds]

/-- numbers of one byte, from two entries, and from entries the first of which has bounds that go
down -/
theorem interpret_by_entry_pair :
    let numbers : Interpretation := { type := .primitive .uint8, registry := {} }
    (∃ basket, Basket.decode Codec.standard {}
        ((Basket.pairHeader 56).bytes #[] 0 ++ Basket.pairRaw) = .ok basket ∧
      basket.offsets = some [0, 1, 3] ∧
      numbers.interpret basket = .ok [.uint 7, .uint 8]) ∧
    ∃ basket, Basket.decode Codec.standard {}
        ((Basket.pairHeader 56).bytes #[] 0 ++ (#[7, 8, 9] ++
          #[0, 0, 0, 3, 0, 0, 0, 41, 0, 0, 0, 38, 0, 0, 0, 0])) = .ok basket ∧
      basket.offsets = some [4, 1, 3] ∧
      numbers.interpret basket = .error (.malformed (.entryRange 4 1 3)) := by
  intro numbers
  obtain ⟨plain, decoded, size, offsets, data⟩ := @Basket.exists_of_parts Codec.standard
    ((Basket.pairHeader 56).bytes #[] 0 ++ Basket.pairRaw) #[7, 8, 9] 2 [0, 1, 3] (by decide +kernel)
  obtain ⟨other, decodedToo, sizeToo, offsetsToo, dataToo⟩ := @Basket.exists_of_parts Codec.standard
    ((Basket.pairHeader 56).bytes #[] 0 ++ (#[7, 8, 9] ++
      #[0, 0, 0, 3, 0, 0, 0, 41, 0, 0, 0, 38, 0, 0, 0, 0])) #[7, 8, 9] 2 [4, 1, 3] (by decide +kernel)
  refine ⟨⟨plain, decoded, offsets, ?_⟩, other, decodedToo, offsetsToo, ?_⟩
  · refine ((interpret_by_entry (.decode decoded) offsets numbers).1 _).2 ⟨size.symm, ?_⟩
    rw [size]
    intro i inside
    match i with
    | 0 => exact ⟨.uint 7, rfl, #[7],
        (Basket.entry?_eq_some_iff data offsets).2 ⟨0, 1, rfl, rfl, rfl⟩, rfl⟩
    | 1 => exact ⟨.uint 8, rfl, #[8, 9],
        (Basket.entry?_eq_some_iff data offsets).2 ⟨1, 3, rfl, rfl, rfl⟩, rfl⟩
  · refine ((interpret_by_entry (.decode decodedToo) offsetsToo numbers).2 _).2 ⟨0, ?_, nofun, ?_⟩
    · rw [sizeToo]
      exact Nat.zero_lt_two
    · exact .outside (.range dataToo offsetsToo rfl rfl (.inl (by decide)))

end Interpretation

end Baskets
