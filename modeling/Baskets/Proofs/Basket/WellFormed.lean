import Baskets.Proofs.Basket.Slices
import Baskets.Proofs.Basket.Written

/-!
# Baskets that were decoded

The fields of a header are numbers of either sign that need not go together.  What decoding gives is
well-formed all the same (`BasketContents.WellFormed`): the entries end at the border, their bounds
at the end of the entries, and the blocks add up to what the header says.  All other bytes come to a
fault, and none to a slice out of range (`Basket.wellFormed`).
-/

namespace Baskets

/-! ## blocks -/

namespace Block

variable {codecs : Algorithm → Codec} {data out raw : Bytes} {info : BlockInfo}
  {blocks : List BlockInfo}

theorem read_ok {offset index : Nat} (ran : read codecs data offset index = .ok (out, info)) :
    out.size = info.uncompressed ∧ 0 < info.compressed ∧ offset + info.compressed ≤ data.size := by
  unfold read at ran
  dsimp only at ran
  split at ran
  · cases ran
  obtain ⟨algorithm, -, ran⟩ := bind_ok ran
  split at ran
  · cases ran
  rename_i whole
  obtain ⟨content, -, ran⟩ := bind_ok ran
  split at ran
  · cases ran
  rename_i size
  cases ran
  refine ⟨not_not.1 size, ?_, ?_⟩
  · exact Nat.lt_of_lt_of_le (by decide : 0 < headerSize) (Nat.le_add_right _ _)
  · rw [← Nat.add_assoc]
    exact Nat.le_of_not_lt whole

/-- blocks are read up to the end of the data -/
theorem readAll_ok {fuel offset : Nat} {done : List BlockInfo}
    (ran : readAll codecs data fuel offset out done = .ok (raw, blocks))
    (inside : offset ≤ data.size) (enough : data.size ≤ offset + fuel) :
    ∃ more, blocks = done ++ more ∧ raw.size = out.size + (more.map BlockInfo.uncompressed).sum ∧
      offset + (more.map BlockInfo.compressed).sum = data.size := by
  induction fuel generalizing offset out done with
  | zero =>
    cases ran
    exact ⟨[], by simp, by simp, by simp; omega⟩
  | succ fuel ih =>
    unfold readAll at ran
    split at ran
    · cases ran
      exact ⟨[], by simp, by simp, by simp; omega⟩
    · obtain ⟨⟨content, info⟩, one, ran⟩ := bind_ok ran
      obtain ⟨size, some_, fits⟩ := read_ok one
      obtain ⟨more, rfl, total, stop⟩ := ih ran fits (by omega)
      refine ⟨info :: more, by simp, ?_, ?_⟩
      · rw [total, Array.size_append, size, List.map_cons, List.sum_cons]
        omega
      · rw [List.map_cons, List.sum_cons]
        omega

theorem decompress_ok {compressed expected : Nat}
    (ran : decompress codecs data compressed expected = .ok (raw, blocks)) :
    raw.size = expected ∧ (blocks.map BlockInfo.compressed).sum = compressed ∧
      (blocks.map BlockInfo.uncompressed).sum = expected := by
  unfold decompress at ran
  split at ran
  · cases ran
  rename_i inside
  obtain ⟨⟨content, infos⟩, all, ran⟩ := bind_ok ran
  dsimp only at ran
  split at ran
  · cases ran
  rename_i size
  cases ran
  have length : (data.extract 0 compressed).size = compressed := by
    rw [Array.size_extract]
    omega
  obtain ⟨more, rfl, total, stop⟩ := readAll_ok all (Nat.zero_le _) (by omega)
  rw [Array.size_empty, Nat.zero_add] at total
  have expected : raw.size = expected := not_not.1 size
  exact ⟨expected, by omega, by omega⟩

end Block

/-! ## bounds -/

theorem entryStarts_ok {headerLength : Int} {footer : Bytes} {count pos : Nat} {starts : List Nat}
    (ran : entryStarts headerLength footer count pos = .ok starts) : starts.length = count := by
  induction count generalizing pos starts with
  | zero =>
    cases ran
    rfl
  | succ count ih =>
    unfold entryStarts at ran
    obtain ⟨first, -, ran⟩ := bind_ok ran
    obtain ⟨others, rest, ran⟩ := bind_ok ran
    cases ran
    exact congrArg (· + 1) (ih rest)

theorem entryBounds_ok {h : BasketHeader} {border : Nat} {footer : Bytes} {bounds : List Nat}
    (ran : entryBounds h border footer = .ok bounds) :
    bounds.length = h.entryCount.toNat + 1 ∧ bounds.getLast? = some border := by
  unfold entryBounds at ran
  split at ran
  · cases ran
  dsimp only at ran
  split at ran
  · cases ran
  obtain ⟨starts, all, ran⟩ := bind_ok ran
  cases ran
  have length := entryStarts_ok all
  exact ⟨by simp [length], by simp⟩

/-! ## contents -/

namespace BasketContents

/-- what a header promises, and what only follows from the checks of decoding -/
structure WellFormed (h : BasketHeader) (contents : BasketContents) : Prop where
  border : h.border = contents.data.size
  bounds : ∀ offsets ∈ contents.offsets, offsets.length = h.entryCount.toNat + 1 ∧
    offsets.getLast? = some contents.data.size
  /-- by itself a basket has bounds when the payload goes on behind the border -/
  standing : h.isEmbedded = false → (contents.offsets.isSome ↔ h.border ≠ h.objectLength) ∧
    ∃ raw, contents.raw = some raw ∧ h.objectLength = raw.size ∧
      contents.data = raw.extract 0 contents.data.size
  /-- in its branch a basket has bounds when the entries have not all the same size -/
  embedded : h.isEmbedded = true →
    (contents.offsets.isSome ↔ h.entrySize * h.entryCount ≠ h.border) ∧
      contents.raw = none ∧ contents.blocks = none
  blocks : ∀ blocks ∈ contents.blocks,
    h.totalBytes - h.headerLength = (blocks.map BlockInfo.compressed).sum ∧
      h.objectLength = (blocks.map BlockInfo.uncompressed).sum

variable {codecs : Algorithm → Codec} {h : BasketHeader} {c d : Cursor} {border : Nat}

theorem ofExcept_ok {α : Type} {result : Except Fault α} {a : α}
    (ran : (Scan.ofExcept result).run c = (.ok a, d)) : result = .ok a := by
  cases result with
  | error fault => cases ran
  | ok found =>
    cases ran
    rfl

theorem size_take {n : Nat} {bytes : Bytes} (ran : (Scan.take n).run c = (.ok bytes, d)) :
    bytes.size = n := by
  obtain ⟨inside, rfl, -⟩ := Scan.take_takes ran
  rw [Array.size_extract]
  omega

theorem embeddedBounds_ok {offsets : Option (List Nat)}
    (ran : (embeddedBounds h border).run c = (.ok offsets, d)) :
    (offsets.isSome ↔ h.hasEmbeddedFooter = true) ∧ ∀ bounds ∈ offsets,
      bounds.length = h.entryCount.toNat + 1 ∧ bounds.getLast? = some border := by
  unfold embeddedBounds at ran
  split at ran
  · split at ran
    · cases ran
    rename_i footed _
    obtain ⟨footer, e, -, ran⟩ := Scan.run_bind_ok ran
    obtain ⟨bounds, f, found, ran⟩ := Scan.run_bind_ok ran
    obtain ⟨_, _, -, ran⟩ := Scan.run_bind_ok ran
    cases ran
    refine ⟨iff_of_true rfl footed, fun other same => ?_⟩
    obtain rfl := Option.some.inj same
    exact entryBounds_ok (ofExcept_ok found)
  · rename_i plain
    cases ran
    exact ⟨iff_of_false Bool.false_ne_true plain, fun _ mem => nomatch mem⟩

theorem wellFormed_embedded {contents : BasketContents} (embedded_ : h.isEmbedded = true)
    (same : h.border = border) (ran : (embedded h border).run c = (.ok contents, d)) :
    contents.WellFormed h := by
  unfold embedded at ran
  obtain ⟨offsets, e, bounds, ran⟩ := Scan.run_bind_ok ran
  dsimp only at ran
  split at ran
  · cases ran
  obtain ⟨_, f, -, ran⟩ := Scan.run_bind_ok ran
  obtain ⟨data, g, taken, ran⟩ := Scan.run_bind_ok ran
  cases ran
  have size := size_take taken
  obtain ⟨footed, counted⟩ := embeddedBounds_ok bounds
  have unequal : h.hasEmbeddedFooter = true ↔ h.entrySize * h.entryCount ≠ h.border := by
    unfold BasketHeader.hasEmbeddedFooter BasketHeader.border
    rw [decide_eq_true_iff]
    omega
  refine ⟨?_, ?_, fun standing => ?_, fun _ => ⟨footed.trans unequal, rfl, rfl⟩, ?_⟩
  · rw [same, size]
  · rw [size]
    exact counted
  · rw [embedded_] at standing
    cases standing
  · exact fun _ mem => nomatch mem

theorem payload_ok {stored size : Nat} {raw : Bytes} {blocks : Option (List BlockInfo)}
    (ran : (payload codecs stored size).run c = (.ok (raw, blocks), d)) :
    raw.size = size ∧ ∀ infos ∈ blocks, (infos.map BlockInfo.compressed).sum = stored ∧
      (infos.map BlockInfo.uncompressed).sum = size := by
  unfold payload at ran
  obtain ⟨bytes, e, taken, ran⟩ := Scan.run_bind_ok ran
  split at ran
  · rename_i same
    cases ran
    exact ⟨(size_take taken).trans same, fun _ mem => nomatch mem⟩
  · split at ran
    · rename_i undone
      cases ran
      obtain ⟨size, compressed, uncompressed⟩ := Block.decompress_ok undone
      refine ⟨size, fun infos mem => ?_⟩
      obtain rfl := Option.some.inj mem
      exact ⟨compressed, uncompressed⟩
    · cases ran

theorem standingBounds_ok {raw : Bytes} {offsets : Option (List Nat)}
    (size : h.objectLength = raw.size)
    (ran : standingBounds h border raw = .ok offsets) : border ≤ raw.size ∧
      (offsets.isSome ↔ (border : Int) ≠ h.objectLength) ∧ ∀ bounds ∈ offsets,
        bounds.length = h.entryCount.toNat + 1 ∧ bounds.getLast? = some border := by
  unfold standingBounds at ran
  split at ran
  · rename_i ended
    cases ran
    refine ⟨by omega, iff_of_false Bool.false_ne_true (not_not.2 ended), fun _ mem => nomatch mem⟩
  · rename_i footed
    split at ran
    · cases ran
    rename_i inside
    obtain ⟨bounds, found, ran⟩ := bind_ok ran
    cases ran
    refine ⟨Nat.le_of_not_lt inside, iff_of_true rfl footed, fun other same => ?_⟩
    obtain rfl := Option.some.inj same
    exact entryBounds_ok found

theorem wellFormed_standing {contents : BasketContents} (standing_ : h.isEmbedded = false)
    (same : h.border = border) (ran : (standing codecs h border).run c = (.ok contents, d)) :
    contents.WellFormed h := by
  unfold standing at ran
  split at ran
  · cases ran
  rename_i positive
  dsimp only at ran
  obtain ⟨⟨raw, blocks⟩, e, loaded, ran⟩ := Scan.run_bind_ok ran
  obtain ⟨offsets, f, bounds, ran⟩ := Scan.run_bind_ok ran
  cases ran
  obtain ⟨size, infos⟩ := payload_ok loaded
  have object : h.objectLength = raw.size := by omega
  obtain ⟨inside, footed, counted⟩ := standingBounds_ok object (ofExcept_ok bounds)
  have length : (raw.extract 0 border).size = border := by
    rw [Array.size_extract]
    omega
  have free : h.headerLength < h.totalBytes := by
    unfold BasketHeader.isEmbedded at standing_
    simpa using standing_
  refine ⟨?_, ?_, fun _ => ⟨?_, raw, rfl, object, ?_⟩, fun embedded => ?_, fun found mem => ?_⟩
  · rw [same, length]
  · rw [length]
    exact counted
  · rw [same]
    exact footed
  · rw [length]
  · rw [standing_] at embedded
    cases embedded
  · obtain ⟨compressed, uncompressed⟩ := infos found mem
    omega

/-- contents that were decoded are well-formed -/
theorem wellFormed_scan {contents : BasketContents}
    (ran : (BasketContents.scan codecs h).run c = (.ok contents, d)) : contents.WellFormed h := by
  unfold BasketContents.scan at ran
  by_cases negative : h.border < 0
  · rw [if_pos negative] at ran
    cases ran
  rw [if_neg negative] at ran
  dsimp only at ran
  have border : h.border = h.border.toNat := by omega
  split at ran
  · rename_i embedded
    exact wellFormed_embedded embedded border ran
  · rename_i standing
    exact wellFormed_standing (Bool.eq_false_iff.2 standing) border ran

end BasketContents

/-! ## baskets -/

namespace Basket

variable {codecs : Algorithm → Codec} {ctx : BasketContext}

/-- the contents are there, and go with the header -/
def WellFormed (basket : Basket) : Prop :=
  ∃ contents, basket.contents = some contents ∧ contents.WellFormed basket.header

theorem wellFormed_ofHeader {header : BasketHeader} {basket : Basket} {c d : Cursor}
    (read : ctx.readContents = true) (ran : (ofHeader codecs ctx header).run c = (.ok basket, d)) :
    basket.header = header ∧ basket.WellFormed := by
  unfold ofHeader at ran
  rw [if_pos read] at ran
  obtain ⟨contents, e, scanned, ran⟩ := Scan.run_bind_ok ran
  cases ran
  exact ⟨rfl, contents, rfl, BasketContents.wellFormed_scan scanned⟩

theorem wellFormed_decode {bytes : Bytes} {basket : Basket} (read : ctx.readContents = true)
    (decoded : decode codecs ctx bytes = .ok basket) : basket.WellFormed := by
  have decoded : ((BasketHeader.scan >>= ofHeader codecs ctx).run { data := bytes }).1 =
      .ok basket := decoded
  rcases ran : (BasketHeader.scan >>= ofHeader codecs ctx).run { data := bytes } with ⟨result, d⟩
  rw [ran] at decoded
  obtain rfl : result = .ok basket := decoded
  obtain ⟨header, e, -, ran⟩ := Scan.run_bind_ok ran
  exact (wellFormed_ofHeader read ran).2

/-- **Decoded baskets are well-formed.**  Behind a header of any numbers, at any position, and at
the start of any bytes, decoding breaks off at no slice, and what it gives with contents is
well-formed; all else is a fault. -/
theorem wellFormed (codecs : Algorithm → Codec) {ctx : BasketContext}
    (read : ctx.readContents = true) :
    (∀ header cursor,
      (SlicedScan.ofHeader codecs ctx header).run cursor =
          some ((ofHeader codecs ctx header).run cursor) ∧
        ∀ basket after, (ofHeader codecs ctx header).run cursor = (.ok basket, after) →
          basket.header = header ∧ basket.WellFormed) ∧
    ∀ bytes,
      (Sliced.decode codecs ctx bytes).run = some (decode codecs ctx bytes) ∧
        ∀ basket, decode codecs ctx bytes = .ok basket → basket.WellFormed := by
  refine ⟨fun header cursor => ⟨SlicedScan.is_ofHeader ctx header cursor, ?_⟩,
    fun bytes => ⟨Sliced.is_decode codecs ctx bytes, ?_⟩⟩
  · intro basket after ran
    exact wellFormed_ofHeader read ran
  · intro basket decoded
    exact wellFormed_decode read decoded

/-- two entries in a block -/
theorem wellFormed_pair : ∃ basket,
    decode Codec.standard {} ((pairHeader 75).bytes #[] 0 ++ pairBlock.bytes) = .ok basket ∧
      basket.blocks = some [pairBlock.info] ∧ basket.WellFormed := by
  have blocks : (decode Codec.standard {} ((pairHeader 75).bytes #[] 0 ++ pairBlock.bytes)).map
      Basket.blocks = .ok (some [pairBlock.info]) := by
    decide +kernel
  cases decoded : decode Codec.standard {} ((pairHeader 75).bytes #[] 0 ++ pairBlock.bytes) with
  | error fault =>
    rw [decoded] at blocks
    cases blocks
  | ok basket =>
    rw [decoded] at blocks
    exact ⟨basket, rfl, Except.ok.inj blocks,
      ((wellFormed Codec.standard rfl).2 _).2 basket decoded⟩

end Basket

end Baskets
