import Baskets.Proofs.Basket.WellFormed
import Baskets.Proofs.Scan.Surroundings

/-!
# Baskets in a file

A basket is decoded in a file as it is alone.  What is decoded from some bytes is decoded from them
with more behind (`Basket.decode_append`), and a basket that stands for itself ends where its header
says, so that nothing is lost when it is cut off there (`Basket.exists_standing`).  A file is read at
a position by the two numbers in the header that tell the one kind from the other
(`Basket.extent_of_header`).
-/

namespace Baskets

open Scan (Moves Stays)

/-! ## other bytes around a basket -/

theorem BasketHeader.stays_scan : Stays BasketHeader.scan := by
  intro around
  refine Moves.bind .pos fun start => ?_
  refine Moves.bind (Stays.signed 4 around) fun totalBytes => ?_
  refine Moves.bind (Stays.signed 2 around) fun headerVersion => ?_
  refine Moves.bind (Stays.signed 4 around) fun objectLength => ?_
  refine Moves.bind (Stays.unsigned 4 around) fun datime => ?_
  refine Moves.bind (Stays.signed 2 around) fun headerLength => ?_
  refine Moves.bind (Stays.signed 2 around) fun cycle => ?_
  have back : Stays (do
      let version ← Scan.unsigned 2
      let bufferSize ← Scan.signed 4
      let entrySize ← Scan.signed 4
      let entryCount ← Scan.signed 4
      let lastOffset ← Scan.signed 4
      Scan.skip 1
      return { totalBytes, headerVersion, objectLength, datime, headerLength, cycle, version,
               bufferSize, entrySize, entryCount, lastOffset } : Scan BasketHeader) :=
    .bind (.unsigned 2) fun _ => .bind (.signed 4) fun _ => .bind (.signed 4) fun _ =>
      .bind (.signed 4) fun _ => .bind (.signed 4) fun _ => .bind (.skip 1) fun _ => .pure _
  show Moves around id (if headerLength < _ then _ else _) (if headerLength < _ then _ else _)
  split
  · exact .throw_bind
  · show Moves around id (Scan.moveTo (start + _) >>= _) (Scan.moveTo (around.shift start + _) >>= _)
    rw [← around.shift_add]
    exact Moves.bind (.moveTo _) fun _ => back around

namespace BasketContents

variable {codecs : Algorithm → Codec}

theorem stays_ofExcept {α : Type} (result : Except Fault α) : Stays (Scan.ofExcept result) := by
  cases result with
  | error fault => exact .throw fault
  | ok a => exact .pure a

theorem stays_embedded (h : BasketHeader) (border : Nat) : Stays (embedded h border) := by
  have bounds : Stays (embeddedBounds h border) := by
    have footer : Stays (do
        let footer ← Scan.take (8 + 4 * h.entryCount.toNat)
        let bounds ← Scan.ofExcept (entryBounds h border footer)
        Scan.stepBack 4
        return some bounds) :=
      .bind (.take _) fun _ => .bind (stays_ofExcept _) fun _ => .bind (.stepBack 4) fun _ => .pure _
    unfold embeddedBounds
    split
    · split
      · exact .bind (.throw _) fun _ => footer
      · exact footer
    · exact .pure _
  have data (offsets : Option (List Nat)) : Stays (do
      Scan.skip h.headerLength.toNat
      return { data := ← Scan.take border, offsets } : Scan BasketContents) :=
    .bind (.skip _) fun _ => .bind (.take _) fun _ => .pure _
  refine .bind bounds fun offsets => ?_
  dsimp only
  split
  · exact .bind (.throw _) fun _ => data offsets
  · exact data offsets

theorem stays_payload (stored size : Nat) : Stays (payload codecs stored size) := by
  refine .bind (.take _) fun bytes => ?_
  split
  · exact .pure _
  · split
    · exact .pure _
    · exact .throw _

theorem stays_standing (h : BasketHeader) (border : Nat) : Stays (standing codecs h border) := by
  unfold standing
  by_cases negative : h.objectLength < 0
  · rw [if_pos negative]
    exact fun _ => .throw_bind
  · rw [if_neg negative]
    exact .bind (stays_payload _ _) fun _ => .bind (stays_ofExcept _) fun _ => .pure _

theorem stays_scan (h : BasketHeader) : Stays (scan codecs h) := by
  unfold scan
  by_cases negative : h.border < 0
  · rw [if_pos negative]
    exact fun _ => .throw_bind
  · rw [if_neg negative]
    dsimp only
    split
    · exact stays_embedded h _
    · exact stays_standing h _

end BasketContents

namespace Basket

variable {codecs : Algorithm → Codec} {ctx : BasketContext} {bytes : Bytes} {basket : Basket}

theorem stays_ofHeader (header : BasketHeader) : Stays (ofHeader codecs ctx header) := by
  unfold ofHeader
  split
  · exact .bind (BasketContents.stays_scan header) fun _ => .pure _
  · exact .pure _

/-- decoding is a scan from the start of the bytes -/
theorem decode_ok_iff : decode codecs ctx bytes = .ok basket ↔
    ∃ d, (BasketHeader.scan >>= ofHeader codecs ctx).Takes { data := bytes } basket d := by
  show ((BasketHeader.scan >>= ofHeader codecs ctx).run { data := bytes }).1 = _ ↔
    ∃ d, (BasketHeader.scan >>= ofHeader codecs ctx).run { data := bytes } = _
  rcases (BasketHeader.scan >>= ofHeader codecs ctx).run { data := bytes } with ⟨result, d⟩
  constructor
  · rintro rfl
    exact ⟨d, rfl⟩
  · rintro ⟨_, same⟩
    exact congrArg Prod.fst same

/-- bytes behind a basket do not matter -/
theorem decode_append (decoded : decode codecs ctx bytes = .ok basket) (after : Bytes) :
    decode codecs ctx (bytes ++ after) = .ok basket := by
  have stays : Stays (BasketHeader.scan >>= ofHeader codecs ctx) :=
    .bind BasketHeader.stays_scan stays_ofHeader
  obtain ⟨d, takes⟩ := decode_ok_iff.1 decoded
  obtain ⟨stop, -, again⟩ := stays { before := #[], bytes, after } 0 _ _ takes
  unfold Surroundings.outer Surroundings.shift at again
  rw [Array.empty_append] at again
  exact decode_ok_iff.2 ⟨_, again⟩

end Basket

/-! ## where a basket ends -/

namespace BasketContents

variable {codecs : Algorithm → Codec} {h : BasketHeader} {contents : BasketContents} {c d : Cursor}

/-- a payload is read from as many bytes as are stored -/
theorem exists_payload {stored size : Nat} {loaded : Bytes × Option (List BlockInfo)}
    (takes : (payload codecs stored size).Takes c loaded d) :
    ∃ bytes : Bytes, bytes.size = stored ∧ c.Has bytes ∧
      (payload codecs stored size).Undoes bytes loaded := by
  unfold payload at takes ⊢
  obtain ⟨bytes, e, taken, takes⟩ := Scan.takes_bind takes
  obtain ⟨rfl, has, rfl⟩ := Scan.has_of_take taken
  refine ⟨bytes, rfl, has, fun c' has' => (Scan.undoes_take bytes c' has').bind ?_⟩
  split at takes
  · rename_i plain
    obtain ⟨rfl, -⟩ := Scan.takes_pure takes
    rw [if_pos plain]
    rfl
  · rename_i compressed
    rw [if_neg compressed]
    split at takes
    · obtain ⟨rfl, -⟩ := Scan.takes_pure takes
      rfl
    · cases takes

/-- the contents of a basket that stands for itself are read from what the header says is stored -/
theorem exists_standing (standing_ : h.isEmbedded = false)
    (takes : (BasketContents.scan codecs h).Takes c contents d) :
    ∃ bytes : Bytes, h.totalBytes = h.headerLength + bytes.size ∧ c.Has bytes ∧
      (BasketContents.scan codecs h).Undoes bytes contents := by
  have free : h.headerLength < h.totalBytes := by
    unfold BasketHeader.isEmbedded at standing_
    simpa using standing_
  unfold BasketContents.scan at takes ⊢
  by_cases negative : h.border < 0
  · rw [if_pos negative] at takes
    cases takes
  rw [if_neg negative] at takes ⊢
  dsimp only at takes ⊢
  rw [standing_, if_neg Bool.false_ne_true] at takes ⊢
  unfold standing at takes ⊢
  by_cases object : h.objectLength < 0
  · rw [if_pos object] at takes
    cases takes
  rw [if_neg object] at takes ⊢
  dsimp only at takes ⊢
  obtain ⟨⟨raw, blocks⟩, e, loaded, takes⟩ := Scan.takes_bind takes
  obtain ⟨offsets, f, bounds, takes⟩ := Scan.takes_bind takes
  obtain ⟨rfl, -⟩ := Scan.takes_pure takes
  obtain ⟨bytes, size, has, undoes⟩ := exists_payload loaded
  have found := ofExcept_ok bounds.run
  refine ⟨bytes, by omega, has, fun c' has' => (undoes c' has').bind ?_⟩
  dsimp only
  rw [found]
  rfl

end BasketContents

namespace Basket

variable {codecs : Algorithm → Codec} {ctx : BasketContext} {bytes : Bytes} {basket : Basket}

/-- a basket is decoded from a header and what follows it -/
theorem exists_header (read : ctx.readContents = true)
    (decoded : decode codecs ctx bytes = .ok basket) :
    ∃ names last contents d, basket.header.Writable names ∧
      Cursor.Has { data := bytes } (basket.header.bytes names last) ∧
      (BasketContents.scan codecs basket.header).Takes
        (Cursor.past { data := bytes } (basket.header.bytes names last)) contents d ∧
      basket = { header := basket.header, number := ctx.number, contents := some contents } := by
  obtain ⟨d, takes⟩ := decode_ok_iff.1 decoded
  obtain ⟨header, e, first, takes⟩ := Scan.takes_bind takes
  unfold ofHeader at takes
  rw [if_pos read] at takes
  obtain ⟨contents, f, scanned, takes⟩ := Scan.takes_bind takes
  cases takes
  obtain ⟨names, last, writable, has, rfl⟩ := BasketHeader.exists_of_scan first
  exact ⟨names, last, contents, d, writable, has, scanned, rfl⟩

/-- a basket that stands for itself is decoded from as many bytes as its header says -/
theorem exists_standing (read : ctx.readContents = true)
    (decoded : decode codecs ctx bytes = .ok basket) (standing : basket.header.isEmbedded = false) :
    ∃ front behind, bytes = front ++ behind ∧ basket.header.totalBytes = front.size ∧
      decode codecs ctx front = .ok basket := by
  obtain ⟨names, last, contents, d, writable, has, scanned, shape⟩ := exists_header read decoded
  obtain ⟨stored, total, has', undoes⟩ := BasketContents.exists_standing standing scanned
  obtain ⟨before, behind, data, pos⟩ := has.append has'
  obtain rfl : before = #[] := Array.eq_empty_of_size_eq_zero pos.symm
  rw [Array.empty_append] at data
  have size : basket.header.totalBytes = (basket.header.bytes names last ++ stored).size := by
    simp [total, writable.length]
  refine ⟨_, behind, data, size, ?_⟩
  obtain ⟨number, contents_⟩ := ctx
  obtain rfl : contents_ = true := read
  rw [decode_of_undoes writable undoes number, shape]

/-! ## reading at a position -/

theorem scanExtent_takes {h : BasketHeader} {names rest : Bytes} {last : UInt8}
    (writable : h.Writable names) (has : Cursor.Has { data := rest } (h.bytes names last)) :
    ∃ d, scanExtent.Takes { data := rest } (h.totalBytes, h.headerLength) d := by
  have front : Cursor.Has { data := rest } h.front := has.left
  have room : 14 ≤ rest.size := by
    have inside : 0 + h.front.size ≤ rest.size := front.inside
    rw [BasketHeader.size_front] at inside
    omega
  have total := Scan.undoes_signed writable.totalBytes _ front.left
  have length := Scan.undoes_signed writable.headerLength _ front.right.right.right.right.left
  have there : ((((Cursor.past { data := rest } (Bytes.signedOf 4 h.totalBytes)).past
      (Bytes.signedOf 2 h.headerVersion)).past (Bytes.signedOf 4 h.objectLength)).past
      (Bytes.bigOf 4 h.datime)) = { data := rest, pos := 14 } := by
    unfold Cursor.past
    simp only [Bytes.size_signedOf, Bytes.size_bigOf]
  rw [there] at length
  have moved : (Scan.moveTo 14).Takes
      (Cursor.past { data := rest } (Bytes.signedOf 4 h.totalBytes)) ()
      { data := rest, pos := 14 } := Scan.moveTo_takes room
  exact ⟨_, total.bind (moved.bind (length.bind rfl))⟩

/-- the two numbers in a header tell where the basket ends, unless it lies inside its branch -/
theorem extent_of_header {h : BasketHeader} {names rest : Bytes} {last : UInt8} (pos : Nat)
    (writable : h.Writable names) (has : Cursor.Has { data := rest } (h.bytes names last)) :
    extent pos rest =
      if h.isEmbedded then .ok rest
      else if rest.size < h.totalBytes.toNat then
        .error (.underflow pos h.totalBytes.toNat rest.size)
      else .ok (rest.extract 0 h.totalBytes.toNat) := by
  obtain ⟨d, takes⟩ := scanExtent_takes writable has
  have positive : max h.headerLength 0 = h.headerLength := by
    have length := writable.length
    omega
  unfold extent
  rw [takes.run, ok_bind]
  dsimp only
  rw [positive]
  unfold BasketHeader.isEmbedded
  simp only [decide_eq_true_eq]
  rfl

theorem readAt_of_decode (read : ctx.readContents = true)
    (decoded : decode codecs ctx bytes = .ok basket) (before after : Bytes) :
    readAt codecs ctx (before ++ bytes ++ after) before.size = .ok basket := by
  obtain ⟨names, last, contents, d, writable, has, -, -⟩ := exists_header read decoded
  have room : 0 + (basket.header.bytes names last).size ≤ bytes.size := has.inside
  rw [BasketHeader.size_bytes] at room
  have inside : ¬ (before ++ bytes ++ after).size ≤ before.size := by
    rw [Array.size_append, Array.size_append]
    omega
  have rest : (before ++ bytes ++ after).extract before.size (before ++ bytes ++ after).size =
      bytes ++ after := by
    rw [Array.append_assoc, Array.size_append, Array.extract_append_right, Array.extract_size]
  have here : Cursor.Has { data := bytes ++ after } (basket.header.bytes names last) := by
    obtain ⟨front, behind, data, pos⟩ := has
    exact ⟨front, behind ++ after, by rw [← Array.append_assoc, ← data], pos⟩
  unfold readAt
  rw [if_neg inside]
  dsimp only
  rw [rest, extent_of_header before.size writable here]
  cases standing : basket.header.isEmbedded with
  | true => exact decode_append decoded after
  | false =>
    obtain ⟨front, behind, rfl, total, alone⟩ := exists_standing read decoded standing
    have size : basket.header.totalBytes.toNat = front.size := by omega
    have long : ¬ (front ++ behind ++ after).size < front.size := by
      rw [Array.size_append, Array.size_append]
      omega
    have cut : (front ++ behind ++ after).extract 0 front.size = front := by
      rw [Array.append_assoc, Array.extract_append_left, Array.extract_size]
    rw [if_neg Bool.false_ne_true, size, if_neg long, cut]
    exact alone

theorem decode_of_readAt {file : Bytes} {pos : Nat}
    (ran : readAt codecs ctx file pos = .ok basket) :
    decode codecs ctx (file.extract pos file.size) = .ok basket := by
  unfold readAt at ran
  split at ran
  · cases ran
  obtain ⟨bytes, found, decoded⟩ := bind_ok ran
  unfold extent at found
  obtain ⟨⟨totalBytes, headerLength⟩, -, found⟩ := bind_ok found
  dsimp only at found
  split at found
  · cases found
    exact decoded
  split at found
  · cases found
  rename_i long
  cases found
  have whole := decode_append decoded
    ((file.extract pos file.size).extract totalBytes.toNat (file.extract pos file.size).size)
  rw [← Bytes.extract_split _ (Nat.zero_le _) (Nat.le_of_not_lt long), Array.extract_size] at whole
  exact whole

/-- the number of a basket is the one that was asked for -/
theorem decode_number (read : ctx.readContents = true)
    (decoded : decode codecs ctx bytes = .ok basket) (number : Option Nat) :
    decode codecs { number, readContents := ctx.readContents } bytes =
      .ok { basket with number } := by
  obtain ⟨d, takes⟩ := decode_ok_iff.1 decoded
  obtain ⟨header, e, first, takes⟩ := Scan.takes_bind takes
  unfold ofHeader at takes
  rw [if_pos read] at takes
  obtain ⟨contents, f, scanned, takes⟩ := Scan.takes_bind takes
  cases takes
  refine decode_ok_iff.2 ⟨d, first.bind ?_⟩
  unfold ofHeader
  rw [if_pos read]
  exact scanned.bind rfl

theorem readFrom_of_each {file : Bytes} (read : ctx.readContents = true) {positions : List Nat}
    {alone : List Basket}
    (each : List.Forall₂ (fun pos basket => ∃ bytes, Cursor.Has { data := file, pos } bytes ∧
      decode codecs ctx bytes = .ok basket) positions alone) (first : Nat) :
    readFrom codecs ctx.readContents file first positions =
      .ok (alone.mapIdx fun i basket => { basket with number := some (first + i) }) := by
  induction each generalizing first with
  | nil => rfl
  | @cons pos basket positions alone one _ ih =>
    obtain ⟨bytes, ⟨before, after, rfl, rfl⟩, decoded⟩ := one
    have here := @readAt_of_decode codecs { number := some first, readContents := ctx.readContents }
      bytes _ read (decode_number read decoded (some first)) before after
    have later (i : Nat) : first + 1 + i = first + (i + 1) := by omega
    unfold readFrom
    rw [here, ok_bind, ih (first + 1), ok_bind, List.mapIdx_cons]
    simp only [later]
    rfl

/-- **A basket decodes the same alone and in a file.**  What stands before it and behind it does not
matter; what is read at a position is what the bytes from there on are decoded to; and of baskets
anywhere in a file, asked for in any order, each is what it is alone, with its number. -/
theorem decode_in_file (codecs : Algorithm → Codec) {ctx : BasketContext}
    (read : ctx.readContents = true) :
    (∀ before bytes after basket, decode codecs ctx bytes = .ok basket →
      readAt codecs ctx (before ++ bytes ++ after) before.size = .ok basket) ∧
    (∀ file pos basket, readAt codecs ctx file pos = .ok basket →
      decode codecs ctx (file.extract pos file.size) = .ok basket) ∧
    ∀ file positions alone,
      List.Forall₂ (fun pos basket => ∃ bytes, Cursor.Has { data := file, pos } bytes ∧
        decode codecs ctx bytes = .ok basket) positions alone →
      readAll codecs ctx.readContents file positions =
        .ok (alone.mapIdx fun i basket => { basket with number := some i }) := by
  refine ⟨fun before bytes after basket decoded => readAt_of_decode read decoded before after,
    fun file pos basket ran => decode_of_readAt ran, fun file positions alone each => ?_⟩
  have all := readFrom_of_each read each 0
  simp only [Nat.zero_add] at all
  exact all

/-- a basket as it is and one in a block, with a byte between them, and the latter read twice -/
theorem decode_in_file_pair :
    ∃ stored compressed,
      decode Codec.standard {} ((pairHeader 56).bytes #[] 0 ++ pairRaw) = .ok stored ∧
      decode Codec.standard {} ((pairHeader 75).bytes #[] 0 ++ pairBlock.bytes) = .ok compressed ∧
      readAll Codec.standard true (((pairHeader 56).bytes #[] 0 ++ pairRaw) ++ #[9] ++
          ((pairHeader 75).bytes #[] 0 ++ pairBlock.bytes)) [57, 0, 57] =
        .ok [{ compressed with number := some 0 }, { stored with number := some 1 },
          { compressed with number := some 2 }] := by
  have succeeds (bytes : Bytes) (ok : (decode Codec.standard {} bytes).isOk = true) :
      ∃ basket, decode Codec.standard {} bytes = .ok basket := by
    cases decoded : decode Codec.standard {} bytes with
    | error fault =>
      rw [decoded] at ok
      cases ok
    | ok basket => exact ⟨basket, rfl⟩
  obtain ⟨stored, first⟩ := succeeds ((pairHeader 56).bytes #[] 0 ++ pairRaw) (by decide +kernel)
  obtain ⟨compressed, second⟩ := succeeds ((pairHeader 75).bytes #[] 0 ++ pairBlock.bytes)
    (by decide +kernel)
  refine ⟨stored, compressed, first, second, ?_⟩
  have behind := Cursor.has_middle (((pairHeader 56).bytes #[] 0 ++ pairRaw) ++ #[9])
    ((pairHeader 75).bytes #[] 0 ++ pairBlock.bytes) #[]
  have front := Cursor.has_middle #[] ((pairHeader 56).bytes #[] 0 ++ pairRaw)
    (#[9] ++ ((pairHeader 75).bytes #[] 0 ++ pairBlock.bytes))
  rw [Array.append_empty] at behind
  rw [Array.empty_append, ← Array.append_assoc] at front
  have length : (((pairHeader 56).bytes #[] 0 ++ pairRaw) ++ #[9]).size = 57 := by decide +kernel
  rw [length] at behind
  exact (@decode_in_file Codec.standard {} rfl).2.2 _ [57, 0, 57] [compressed, stored, compressed]
    (.cons ⟨_, behind, second⟩ (.cons ⟨_, front, first⟩ (.cons ⟨_, behind, second⟩ .nil)))

end Basket

end Baskets
