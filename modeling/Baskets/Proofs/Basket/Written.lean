import Baskets.Proofs.Basket.Blocks
import Baskets.Proofs.Basket.Footer

/-!
# Baskets that were written

`Basket.Written` says how a basket of some entries may stand in a file: by itself, its payload as it
is or cut into blocks, or inside its branch behind its footer.  Whichever way was taken, decoding
gives back the entries, with their bounds (`Basket.decode_of_written`).
-/

namespace Baskets

namespace BasketHeader

/-- the header of a basket of these entries -/
structure Describes (h : BasketHeader) (names : Bytes) (entries : List Bytes) : Prop where
  writable : h.Writable names
  count : h.entryCount = entries.length
  stop : h.lastOffset = h.headerLength + (Basket.joined entries).size

variable {h : BasketHeader} {names : Bytes} {entries : List Bytes}

theorem Describes.border (describes : h.Describes names entries) :
    h.border = (Basket.joined entries).size := by
  unfold BasketHeader.border
  rw [describes.stop]
  omega

theorem Describes.positive (describes : h.Describes names entries) : 0 ≤ h.headerLength := by
  rw [describes.writable.length]
  omega

theorem Describes.entryBounds (describes : h.Describes names entries) {lead tail : Bytes}
    (leading : lead.size = 4) (trailing : tail.size = 4) :
    entryBounds h (Basket.joined entries).size (Basket.footer h.headerLength lead entries tail) =
      .ok (Basket.bounds 0 entries) :=
  Basket.entryBounds_footer describes.positive describes.count
    (describes.stop ▸ describes.writable.lastOffset) leading trailing

end BasketHeader

namespace Basket

/-- how a basket of these entries may stand in a file, with the whole payload and the blocks that
decoding has to tell of -/
inductive Written (codecs : Algorithm → Codec) (entries : List Bytes) (h : BasketHeader) :
    Bytes → Option Bytes → Option (List BlockInfo) → Prop where
  /-- by itself, with its payload as it is -/
  | stored {names lead tail : Bytes} {last : UInt8} {raw : Bytes}
    (describes : h.Describes names entries) (leading : lead.size = 4) (trailing : tail.size = 4)
    (payload : raw = joined entries ++ footer h.headerLength lead entries tail)
    (object : h.objectLength = raw.size) (total : h.totalBytes = h.headerLength + raw.size) :
    Written codecs entries h (h.bytes names last ++ raw) (some raw) none
  /-- by itself, with its payload in blocks, which together have another size -/
  | compressed {names lead tail : Bytes} {last : UInt8} {raw : Bytes}
    {blocks : List WrittenBlock} (describes : h.Describes names entries) (leading : lead.size = 4)
    (trailing : tail.size = 4)
    (payload : raw = joined entries ++ footer h.headerLength lead entries tail)
    (good : ∀ block ∈ blocks, block.Good codecs)
    (pieces : joined (blocks.map WrittenBlock.piece) = raw) (object : h.objectLength = raw.size)
    (total : h.totalBytes = h.headerLength + (joined (blocks.map WrittenBlock.bytes)).size)
    (other : (joined (blocks.map WrittenBlock.bytes)).size ≠ raw.size) :
    Written codecs entries h (h.bytes names last ++ joined (blocks.map WrittenBlock.bytes))
      (some raw) (some (blocks.map WrittenBlock.info))
  /-- in its branch, with all of its footer but the last word, and another header in front of the
  entries -/
  | embedded {names lead second : Bytes} {last : UInt8} (describes : h.Describes names entries)
    (leading : lead.size = 4) (length : h.headerLength = second.size)
    (total : h.totalBytes ≤ h.headerLength)
    (unequal : h.entrySize * entries.length ≠ (joined entries).size) :
    Written codecs entries h (h.bytes names last ++
      ((lead ++ offsetWords h.headerLength 0 entries) ++ (second ++ joined entries))) none none

end Basket

namespace BasketContents

open Basket

variable {codecs : Algorithm → Codec} {h : BasketHeader} {names : Bytes} {entries : List Bytes}
  {lead tail : Bytes} {raw : Bytes}

/-! ## payloads -/

theorem undoes_payload_stored (raw : Bytes) :
    (payload codecs raw.size raw.size).Undoes raw (raw, none) := by
  intro c has
  unfold payload
  refine (Scan.undoes_take raw c has).bind ?_
  rw [if_pos rfl]
  rfl

theorem undoes_payload_blocks {blocks : List WrittenBlock}
    (good : ∀ block ∈ blocks, block.Good codecs)
    (pieces : joined (blocks.map WrittenBlock.piece) = raw)
    (other : (joined (blocks.map WrittenBlock.bytes)).size ≠ raw.size) :
    (payload codecs (joined (blocks.map WrittenBlock.bytes)).size raw.size).Undoes
      (joined (blocks.map WrittenBlock.bytes)) (raw, some (blocks.map WrittenBlock.info)) := by
  intro c has
  have undone := WrittenBlock.decompress_bytes good
  rw [pieces] at undone
  unfold payload
  refine (Scan.undoes_take _ c has).bind ?_
  rw [if_neg other, undone]
  rfl

/-! ## bounds -/

/-- the bounds of the entries are found in the footer behind them -/
theorem standingBounds_footer (describes : h.Describes names entries) (leading : lead.size = 4)
    (trailing : tail.size = 4) (whole : raw = joined entries ++ footer h.headerLength lead entries tail)
    (object : h.objectLength = raw.size) :
    standingBounds h (joined entries).size raw = .ok (some (bounds 0 entries)) := by
  have footed : ¬ ((joined entries).size : Int) = h.objectLength := by
    rw [object, whole, Array.size_append, size_footer leading trailing]
    omega
  have inside : ¬ raw.size < (joined entries).size := by
    rw [whole, Array.size_append]
    omega
  have behind : raw.extract (joined entries).size raw.size =
      footer h.headerLength lead entries tail := by
    rw [whole, Array.size_append, Array.extract_append_right, Array.extract_size]
  unfold standingBounds
  rw [if_neg footed]
  dsimp only
  rw [if_neg inside, behind, describes.entryBounds leading trailing]
  rfl

/-- the bounds of the entries are found in the footer in front of them; its last word is read once
more -/
theorem takes_embeddedBounds (describes : h.Describes names entries) (leading : lead.size = 4)
    (trailing : tail.size = 4) (unequal : h.entrySize * entries.length ≠ (joined entries).size)
    {c : Cursor} (has : c.Has (footer h.headerLength lead entries tail)) :
    (embeddedBounds h (joined entries).size).Takes c (some (bounds 0 entries))
      (c.past (lead ++ offsetWords h.headerLength 0 entries)) := by
  have footed : h.hasEmbeddedFooter = true := by
    unfold BasketHeader.hasEmbeddedFooter
    rw [describes.count, describes.stop]
    refine decide_eq_true fun same => unequal ?_
    omega
  have size : 8 + 4 * h.entryCount.toNat = (footer h.headerLength lead entries tail).size := by
    rw [size_footer leading trailing, describes.count, Int.toNat_natCast, Nat.add_comm]
  have back := Scan.stepBack_past c (lead ++ offsetWords h.headerLength 0 entries) tail
  rw [trailing, Array.append_assoc] at back
  unfold embeddedBounds
  rw [if_pos footed, if_neg (by rw [describes.count]; omega), size]
  refine (Scan.undoes_take _ c has).bind ?_
  rw [describes.entryBounds leading trailing]
  exact back.bind rfl

/-! ## the two kinds -/

/-- the contents of a basket that stands by itself, whatever its payload is made of -/
theorem undoes_standing (describes : h.Describes names entries) (leading : lead.size = 4)
    (trailing : tail.size = 4) (whole : raw = joined entries ++ footer h.headerLength lead entries tail)
    (object : h.objectLength = raw.size) {bytes : Bytes} (some_ : 0 < bytes.size)
    (total : h.totalBytes = h.headerLength + bytes.size) {blocks : Option (List BlockInfo)}
    (undoes : (payload codecs bytes.size raw.size).Undoes bytes (raw, blocks)) :
    (BasketContents.scan codecs h).Undoes bytes
      { data := joined entries, raw := some raw, offsets := some (bounds 0 entries), blocks } := by
  intro c has
  have free : h.isEmbedded = false := by
    unfold BasketHeader.isEmbedded
    rw [total, decide_eq_false_iff_not]
    omega
  have border := describes.border
  have stored : (h.totalBytes - h.headerLength).toNat = bytes.size := by
    rw [total]
    omega
  have data : raw.extract 0 (joined entries).size = joined entries := by
    rw [whole, Array.extract_append_left, Array.extract_size]
  have bounds_ := standingBounds_footer describes leading trailing whole object
  unfold BasketContents.scan
  rw [border, if_neg (by omega), free]
  show (standing codecs h (joined entries).size).Takes _ _ _
  unfold standing
  rw [if_neg (by rw [object]; omega), stored, object]
  dsimp only
  refine (undoes c has).bind ?_
  dsimp only
  rw [bounds_, data]
  rfl

/-- the contents of a basket in its branch -/
theorem undoes_embedded (describes : h.Describes names entries) (leading : lead.size = 4)
    {second : Bytes} (length : h.headerLength = second.size) (total : h.totalBytes ≤ h.headerLength)
    (unequal : h.entrySize * entries.length ≠ (joined entries).size) :
    (BasketContents.scan codecs h).Undoes
      ((lead ++ offsetWords h.headerLength 0 entries) ++ (second ++ joined entries))
      { data := joined entries, offsets := some (bounds 0 entries) } := by
  intro c has
  have inBranch : h.isEmbedded = true := decide_eq_true total
  have long : 4 ≤ second.size := by
    have length := describes.writable.length
    omega
  -- the first word of the second header is read as the last word of the footer
  obtain ⟨word, more, trailing, rfl⟩ : ∃ word more : Bytes, word.size = 4 ∧ second = word ++ more :=
    ⟨second.extract 0 4, second.extract 4 second.size, Array.size_extract_of_le long, by
      rw [Array.extract_append_extract, Nat.min_eq_left (Nat.zero_le 4), Nat.max_eq_right long,
        Array.extract_size]⟩
  have atFooter : c.Has (footer h.headerLength lead entries word) := by
    have split : (lead ++ offsetWords h.headerLength 0 entries) ++ (word ++ more ++ joined entries) =
        footer h.headerLength lead entries word ++ (more ++ joined entries) := by
      simp only [footer, Array.append_assoc]
    rw [split] at has
    exact has.left
  have bounds_ := takes_embeddedBounds describes leading trailing unequal atFooter
  unfold BasketContents.scan
  rw [describes.border, if_neg (by omega), if_pos inBranch, Int.toNat_natCast]
  unfold embedded
  refine bounds_.bind ?_
  have skipped : h.headerLength.toNat = (word ++ more).size := by
    rw [length, Int.toNat_natCast]
  have stop : c.past ((lead ++ offsetWords h.headerLength 0 entries) ++
      (word ++ more ++ joined entries)) = ((c.past (lead ++ offsetWords h.headerLength 0 entries)).past
        (word ++ more)).past (joined entries) := by
    simp
  rw [if_neg (by rw [length]; omega), skipped, stop]
  refine (Scan.undoes_skip _ _ has.right.left).bind ?_
  exact (Scan.undoes_take (joined entries)).map (fun data =>
    ({ data, offsets := some (bounds 0 entries) } : BasketContents)) _ has.right.right

end BasketContents

namespace Basket

variable {codecs : Algorithm → Codec} {entries : List Bytes} {h : BasketHeader} {bytes : Bytes}
  {raw : Option Bytes} {blocks : Option (List BlockInfo)}

/-- a header and contents are decoded one after the other -/
theorem decode_of_undoes {names : Bytes} {last : UInt8} (writable : h.Writable names)
    {contents : BasketContents} (undoes : (BasketContents.scan codecs h).Undoes bytes contents)
    (number : Option Nat) :
    decode codecs { number } (h.bytes names last ++ bytes) =
      .ok { header := h, number, contents := some contents } := by
  have has := Cursor.has_all (h.bytes names last ++ bytes)
  have contents : (ofHeader codecs { number } h).Undoes bytes
      { header := h, number, contents := some contents } :=
    undoes.map fun contents => ({ header := h, number, contents := some contents } : Basket)
  have whole := (BasketHeader.undoes_scan writable last).bind contents _ has
  show (Scan.run (BasketHeader.scan >>= ofHeader codecs { number }) _).1 = _
  rw [whole.run]

/-- what there is to see of a basket with contents of these entries -/
theorem exists_decoded {names : Bytes} {last : UInt8} (describes : h.Describes names entries)
    (undoes : (BasketContents.scan codecs h).Undoes bytes
      { data := joined entries, raw, offsets := some (bounds 0 entries), blocks })
    (number : Option Nat) :
    ∃ basket, decode codecs { number } (h.bytes names last ++ bytes) = .ok basket ∧
      basket.header = h ∧ basket.number = number ∧ basket.size = entries.length ∧
      basket.data = some (joined entries) ∧ basket.offsets = some (bounds 0 entries) ∧
      (∀ i, basket.entry? i = entries[i]?) ∧ basket.raw = raw ∧ basket.blocks = blocks := by
  have count : h.entryCount.toNat = entries.length := by
    rw [describes.count, Int.toNat_natCast]
  exact ⟨_, decode_of_undoes describes.writable undoes number, rfl, rfl, count, rfl, rfl,
    entry?_of_joined rfl rfl, rfl, rfl⟩

/-- **Decoding undoes writing.**  However a basket of some entries stands in a file, decoding it
succeeds and gives the entries and their bounds, and no entry behind the last. -/
theorem decode_of_written (written : Written codecs entries h bytes raw blocks)
    (number : Option Nat) :
    ∃ basket, decode codecs { number } bytes = .ok basket ∧ basket.header = h ∧
      basket.number = number ∧ basket.size = entries.length ∧
      basket.data = some (joined entries) ∧ basket.offsets = some (bounds 0 entries) ∧
      (∀ i, basket.entry? i = entries[i]?) ∧ basket.raw = raw ∧ basket.blocks = blocks := by
  cases written with
  | @stored _ _ _ _ raw describes leading trailing payload object total =>
    have some_ : 0 < raw.size := by
      rw [payload, Array.size_append, size_footer leading trailing]
      omega
    exact exists_decoded describes (BasketContents.undoes_standing describes leading trailing
      payload object some_ total (BasketContents.undoes_payload_stored raw)) number
  | @compressed _ _ _ _ raw blocks describes leading trailing payload good pieces object total
      other =>
    have some_ : 0 < (joined (blocks.map WrittenBlock.bytes)).size := by
      cases blocks with
      | nil =>
        have nothing : raw.size = 0 := congrArg Array.size pieces.symm
        rw [payload, Array.size_append, size_footer leading trailing] at nothing
        omega
      | cons block rest => exact (WrittenBlock.length_le_size (block :: rest)).trans_lt' (by simp)
    exact exists_decoded describes (BasketContents.undoes_standing describes leading trailing
      payload object some_ total (BasketContents.undoes_payload_blocks good pieces other)) number
  | embedded describes leading length total unequal =>
    exact exists_decoded describes
      (BasketContents.undoes_embedded describes leading length total unequal) number

/-! ### two entries -/

/-- an entry of one byte and one of two -/
def pair : List Bytes := [#[7], #[8, 9]]

/-- the shortest header of the two, in a basket of some bytes -/
def pairHeader (totalBytes : Int) : BasketHeader where
  totalBytes := totalBytes
  headerVersion := 4
  objectLength := 19
  datime := 0
  headerLength := 37
  cycle := 1
  version := 3
  bufferSize := 32000
  entrySize := 0
  entryCount := 2
  lastOffset := 40

/-- the two entries and their footer -/
def pairRaw : Bytes := joined pair ++ footer 37 #[0, 0, 0, 3] pair #[0, 0, 0, 0]

/-- the same as literals of LZ4, behind a checksum -/
def pairBlock : WrittenBlock where
  algorithm := .lz4
  method := 1
  checksum := #[0, 0, 0, 0, 0, 0, 0, 0]
  payload := #[0xf0, 4] ++ pairRaw
  piece := pairRaw

theorem describes_pair {totalBytes : Int} (fits : Bytes.Signed 4 totalBytes) :
    (pairHeader totalBytes).Describes #[] pair :=
  ⟨{ totalBytes := fits
     headerVersion := (by decide : Bytes.Signed 2 4)
     objectLength := (by decide : Bytes.Signed 4 19)
     datime := (by decide : 0 < 256 ^ 4)
     headerLength := (by decide : Bytes.Signed 2 37)
     cycle := (by decide : Bytes.Signed 2 1)
     version := (by decide : 3 < 256 ^ 2)
     bufferSize := (by decide : Bytes.Signed 4 32000)
     entrySize := (by decide : Bytes.Signed 4 0)
     entryCount := (by decide : Bytes.Signed 4 2)
     lastOffset := (by decide : Bytes.Signed 4 40)
     length := rfl }, rfl, rfl⟩

theorem good_pairBlock : pairBlock.Good Codec.standard where
  stored := by decide +kernel
  piece := by decide +kernel
  checksum := rfl
  undone := by decide +kernel

theorem decode_of_written_pair :
    (∃ basket, decode Codec.standard {} ((pairHeader 56).bytes #[] 0 ++ pairRaw) = .ok basket ∧
      (∀ i, basket.entry? i = pair[i]?) ∧ basket.raw = some pairRaw) ∧
    (∃ basket, decode Codec.standard {} ((pairHeader 75).bytes #[] 0 ++ joined [pairBlock.bytes]) =
      .ok basket ∧ (∀ i, basket.entry? i = pair[i]?) ∧ basket.blocks = some [pairBlock.info]) ∧
    ∃ basket, decode Codec.standard {} ((pairHeader 37).bytes #[] 0 ++
      ((#[0, 0, 0, 3] ++ offsetWords 37 0 pair) ++ ((pairHeader 37).bytes #[] 0 ++ joined pair))) =
        .ok basket ∧ (∀ i, basket.entry? i = pair[i]?) ∧ basket.raw = none := by
  have stored := @Written.stored Codec.standard pair (pairHeader 56) #[] #[0, 0, 0, 3]
    #[0, 0, 0, 0] 0 pairRaw (describes_pair (by decide)) rfl rfl rfl rfl rfl
  have compressed := @Written.compressed Codec.standard pair (pairHeader 75) #[] #[0, 0, 0, 3]
    #[0, 0, 0, 0] 0 pairRaw [pairBlock] (describes_pair (by decide)) rfl rfl rfl
    (List.forall_mem_singleton.2 good_pairBlock) rfl rfl rfl (by decide)
  have embedded := @Written.embedded Codec.standard pair (pairHeader 37) #[] #[0, 0, 0, 3]
    ((pairHeader 37).bytes #[] 0) 0 (describes_pair (by decide)) rfl rfl (by decide) (by decide)
  obtain ⟨first, decoded, -, -, -, -, -, each, raw, -⟩ := decode_of_written stored none
  obtain ⟨second, decodedToo, -, -, -, -, -, eachToo, -, blocks⟩ := decode_of_written compressed none
  obtain ⟨third, decodedLast, -, -, -, -, -, eachLast, none_, -⟩ := decode_of_written embedded none
  exact ⟨⟨first, decoded, each, raw⟩, ⟨second, decodedToo, eachToo, blocks⟩,
    ⟨third, decodedLast, eachLast, none_⟩⟩

end Basket

end Baskets
