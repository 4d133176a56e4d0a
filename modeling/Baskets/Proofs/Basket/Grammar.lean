import Baskets.Proofs.Basket.WellFormed

/-!
# The grammar of compressed data

Undoing succeeds on blocks that stand one behind the other, and on nothing else.  A block that was
read is one that could have been written (`WrittenBlock.exists_of_read`), so bytes that were undone
are split into blocks (`Block.Split`).  They are split in one way only, because the header of a block
says where the block ends (`WrittenBlock.bytes_append_inj`).
-/

namespace Baskets

/-! ## tags and sizes -/

theorem Algorithm.eq_tag_of_ofTag {bytes : Bytes} {algorithm : Algorithm}
    (known : Algorithm.ofTag bytes = .ok algorithm) : bytes = algorithm.tag := by
  unfold Algorithm.ofTag at known
  split at known
  · cases known
    assumption
  split at known
  · cases known
    assumption
  split at known
  · cases known
    assumption
  split at known
  · cases known
    assumption
  split at known <;> cases known

theorem Algorithm.tag_inj {algorithm other : Algorithm} (same : algorithm.tag = other.tag) :
    algorithm = other := by
  have known := algorithm.ofTag_tag
  rw [same, other.ofTag_tag] at known
  exact (Except.ok.inj known).symm

theorem Basket.size_joined (entries : List Bytes) :
    (joined entries).size = (entries.map Array.size).sum := by
  induction entries with
  | nil => rfl
  | cons entry rest ih =>
    show (entry ++ joined rest).size = _
    rw [Array.size_append, ih, List.map_cons, List.sum_cons]

namespace WrittenBlock

variable {codecs : Algorithm → Codec} {block other : WrittenBlock} {data out : Bytes}

/-! ## one block -/

theorem sizeBytes_little {bytes : Bytes} (three : bytes.size = 3) :
    sizeBytes bytes.little = bytes := by
  have again := Bytes.littleOf_little bytes
  rw [three] at again
  unfold sizeBytes
  rw [again]

/-- what was undone is a payload, behind a checksum if the algorithm has one -/
theorem exists_of_undo {algorithm : Algorithm} {stored : Bytes} {size : Nat}
    (undone : Block.undo codecs algorithm stored size = .ok out) :
    ∃ checksum payload, stored = checksum ++ payload ∧
      checksum.size = (if algorithm = .lz4 then 8 else 0) ∧
      codecs algorithm payload size = some out := by
  by_cases lz4 : algorithm = .lz4
  · subst lz4
    unfold Block.undo at undone
    dsimp only at undone
    split at undone
    · cases undone
    rename_i long
    have long : 8 ≤ stored.size := Nat.le_of_not_lt long
    refine ⟨stored.extract 0 8, stored.extract 8 stored.size, ?_, ?_, ?_⟩
    · rw [← Bytes.extract_split stored (Nat.zero_le 8) long, Array.extract_size]
    · rw [Array.size_extract_of_le long, if_pos rfl]
    · split at undone
      · rename_i found
        cases undone
        exact found
      · cases undone
  · refine ⟨#[], stored, Array.empty_append.symm, (if_neg lz4).symm, ?_⟩
    unfold Block.undo at undone
    cases algorithm with
    | lz4 => exact absurd rfl lz4
    | zlib | lzma | zstd =>
      dsimp only at undone
      split at undone
      · rename_i found
        cases undone
        exact found
      · cases undone

/-- a block that was read could have been written -/
theorem exists_of_read {offset index : Nat} {info : BlockInfo}
    (ran : Block.read codecs data offset index = .ok (out, info)) :
    ∃ block : WrittenBlock, block.Good codecs ∧ offset + block.bytes.size ≤ data.size ∧
      data.extract offset (offset + block.bytes.size) = block.bytes ∧
      out = block.piece ∧ info = block.info := by
  unfold Block.read at ran
  dsimp only at ran
  split at ran
  · cases ran
  rename_i room
  have room : offset + 9 ≤ data.size := Nat.le_of_not_lt room
  obtain ⟨algorithm, known, ran⟩ := bind_ok ran
  have tag := Algorithm.eq_tag_of_ofTag known
  split at ran
  · cases ran
  rename_i whole
  obtain ⟨piece, undone, ran⟩ := bind_ok ran
  split at ran
  · cases ran
  rename_i announced
  cases ran
  have size : out.size = Bytes.little (data.extract (offset + 6) (offset + 9)) := not_not.1 announced
  obtain ⟨checksum, payload, stored, eight, found⟩ := exists_of_undo undone
  rw [← size] at found
  obtain ⟨method, single⟩ := Array.size_eq_one_iff.1
    (Bytes.size_extract_add (by omega : offset + 2 + 1 ≤ data.size))
  -- the sizes in the header are those of what follows, and fit where they stand
  have three := Bytes.size_extract_add (by omega : offset + 3 + 3 ≤ data.size)
  have three' := Bytes.size_extract_add (by omega : offset + 6 + 3 ≤ data.size)
  have whole : offset + 9 + Bytes.little (data.extract (offset + 3) (offset + 6)) ≤ data.size :=
    Nat.le_of_not_lt whole
  have storedSize := Bytes.size_extract_add whole
  have stored : data.extract (offset + 9)
      (offset + 9 + Bytes.little (data.extract (offset + 3) (offset + 6))) = checksum ++ payload :=
    stored
  rw [stored] at storedSize
  have fits := Bytes.little_lt (data.extract (offset + 3) (offset + 6))
  have fits' := Bytes.little_lt (data.extract (offset + 6) (offset + 9))
  rw [three, ← storedSize] at fits
  rw [three', ← size] at fits'
  have sizes := sizeBytes_little three
  have sizes' := sizeBytes_little three'
  rw [← storedSize] at sizes
  rw [← size] at sizes'
  rw [← storedSize] at stored whole
  let block : WrittenBlock := { algorithm, method, checksum, payload, piece := out }
  have stop : offset + block.bytes.size = offset + 9 + (checksum ++ payload).size := by
    rw [size_bytes, ← Nat.add_assoc]
    rfl
  have good : block.Good codecs := ⟨fits, fits', eight, found⟩
  have inside : offset + block.bytes.size ≤ data.size := by
    rw [stop]
    exact whole
  refine ⟨block, good, inside, ?_, rfl, ?_⟩
  · rw [stop, Bytes.extract_split data (by omega : offset ≤ offset + 2) (by omega),
      Bytes.extract_split data (by omega : offset + 2 ≤ offset + 3) (by omega),
      Bytes.extract_split data (by omega : offset + 3 ≤ offset + 6) (by omega),
      Bytes.extract_split data (by omega : offset + 6 ≤ offset + 9) (by omega),
      tag, single, stored, ← sizes, ← sizes']
    rfl
  · show BlockInfo.mk _ _ _ = BlockInfo.mk algorithm (9 + (checksum ++ payload).size) out.size
    rw [storedSize, size]
    rfl

/-- the header of a block says where the block ends -/
theorem bytes_append_inj (good : block.Good codecs) (good' : other.Good codecs)
    {rest rest' : Bytes} (same : block.bytes ++ rest = other.bytes ++ rest') :
    block = other ∧ rest = rest' := by
  unfold bytes at same
  simp only [Array.append_assoc] at same
  obtain ⟨tag, same⟩ := Array.append_inj same
    ((Algorithm.size_tag _).trans (Algorithm.size_tag _).symm)
  obtain ⟨methods, same⟩ := Array.append_inj same rfl
  obtain ⟨sizes, same⟩ := Array.append_inj same
    ((size_sizeBytes _).trans (size_sizeBytes _).symm)
  obtain ⟨sizes', same⟩ := Array.append_inj same
    ((size_sizeBytes _).trans (size_sizeBytes _).symm)
  have algorithm := Algorithm.tag_inj tag
  have method : block.method = other.method := by simpa using methods
  have storedSize := congrArg Bytes.little sizes
  rw [little_sizeBytes good.stored, little_sizeBytes good'.stored] at storedSize
  have pieceSize := congrArg Bytes.little sizes'
  rw [little_sizeBytes good.piece, little_sizeBytes good'.piece] at pieceSize
  obtain ⟨stored, rest⟩ := Array.append_inj same storedSize
  have eight := good.checksum
  rw [algorithm, ← good'.checksum] at eight
  obtain ⟨checksum, payload⟩ := Array.append_inj stored eight
  have piece := good.undone
  rw [algorithm, payload, pieceSize, good'.undone] at piece
  refine ⟨?_, rest⟩
  cases block
  cases other
  rw [mk.injEq]
  exact ⟨algorithm, method, checksum, payload, (Option.some.inj piece).symm⟩

theorem joined_bytes_inj {blocks others : List WrittenBlock}
    (good : ∀ block ∈ blocks, block.Good codecs) (good' : ∀ block ∈ others, block.Good codecs)
    (same : Basket.joined (blocks.map bytes) = Basket.joined (others.map bytes)) :
    blocks = others := by
  have nonempty (block : WrittenBlock) (rest : Bytes) : #[] ≠ block.bytes ++ rest := by
    intro same
    have size := congrArg Array.size same
    rw [Array.size_append, size_bytes, Array.size_empty] at size
    omega
  induction blocks generalizing others with
  | nil =>
    cases others with
    | nil => rfl
    | cons other others => exact absurd same (nonempty other _)
  | cons block blocks ih =>
    cases others with
    | nil => exact absurd same.symm (nonempty block _)
    | cons other others =>
      obtain ⟨here, later⟩ := List.forall_mem_cons.1 good
      obtain ⟨here', later'⟩ := List.forall_mem_cons.1 good'
      obtain ⟨first, rest⟩ := bytes_append_inj here here' same
      rw [first, ih later later' rest]

end WrittenBlock

/-! ## blocks one behind the other -/

namespace Block

/-- the bytes are these blocks, each as it can be written -/
structure Split (codecs : Algorithm → Codec) (bytes : Bytes) (blocks : List WrittenBlock) :
    Prop where
  good : ∀ block ∈ blocks, block.Good codecs
  bytes : bytes = Basket.joined (blocks.map WrittenBlock.bytes)

variable {codecs : Algorithm → Codec} {data out raw : Bytes} {infos : List BlockInfo}

/-- bytes are split in one way only -/
theorem Split.unique {bytes : Bytes} {blocks others : List WrittenBlock}
    (split : Split codecs bytes blocks) (split' : Split codecs bytes others) : blocks = others :=
  WrittenBlock.joined_bytes_inj split.good split'.good (split.bytes.symm.trans split'.bytes)

theorem Split.append {front behind : Bytes} {blocks others : List WrittenBlock}
    (split : Split codecs front blocks) (split' : Split codecs behind others) :
    Split codecs (front ++ behind) (blocks ++ others) := by
  refine ⟨List.forall_mem_append.2 ⟨split.good, split'.good⟩, ?_⟩
  rw [List.map_append, Basket.joined_append, ← split.bytes, ← split'.bytes]

theorem exists_of_readAll {fuel offset : Nat} {done : List BlockInfo}
    (ran : readAll codecs data fuel offset out done = .ok (raw, infos))
    (inside : offset ≤ data.size) (enough : data.size ≤ offset + fuel) :
    ∃ blocks, Split codecs (data.extract offset data.size) blocks ∧
      raw = out ++ Basket.joined (blocks.map WrittenBlock.piece) ∧
      infos = done ++ blocks.map WrittenBlock.info := by
  have ended {offset : Nat} (stop : data.size ≤ offset) :
      Split codecs (data.extract offset data.size) [] := by
    refine ⟨(fun _ mem => nomatch mem), ?_⟩
    apply Array.eq_empty_of_size_eq_zero
    rw [Array.size_extract, Nat.min_self]
    exact Nat.sub_eq_zero_of_le stop
  induction fuel generalizing offset out done with
  | zero =>
    cases ran
    exact ⟨[], ended enough, Array.append_empty.symm, (List.append_nil _).symm⟩
  | succ fuel ih =>
    unfold readAll at ran
    split at ran
    · rename_i stop
      cases ran
      exact ⟨[], ended stop, Array.append_empty.symm, (List.append_nil _).symm⟩
    · obtain ⟨⟨content, info⟩, one, ran⟩ := bind_ok ran
      obtain ⟨block, good, fits, here, rfl, rfl⟩ := WrittenBlock.exists_of_read one
      have size := block.size_bytes
      have onward : offset + block.info.compressed = offset + block.bytes.size := by
        rw [size]
        rfl
      dsimp only at ran
      rw [onward] at ran
      obtain ⟨blocks, split, rfl, rfl⟩ := ih ran fits (by omega)
      refine ⟨block :: blocks, ⟨List.forall_mem_cons.2 ⟨good, split.good⟩, ?_⟩, ?_, ?_⟩
      · rw [Bytes.extract_split data (Nat.le_add_right offset block.bytes.size) fits, here,
          split.bytes]
        rfl
      · rw [Array.append_assoc]
        rfl
      · rw [List.append_assoc]
        rfl

/-- only the first bytes matter -/
theorem decompress_extract {compressed : Nat} (inside : compressed ≤ data.size) (expected : Nat) :
    decompress codecs data compressed expected =
      decompress codecs (data.extract 0 compressed) compressed expected := by
  have length : (data.extract 0 compressed).size = compressed := by
    rw [Array.size_extract_of_le inside, Nat.sub_zero]
  have again : (data.extract 0 compressed).extract 0 compressed = data.extract 0 compressed := by
    rw [Array.extract_extract, Nat.zero_add, Nat.zero_add, Nat.min_self]
  unfold decompress
  rw [if_neg (Nat.not_lt.2 inside), if_neg (Nat.not_lt.2 (Nat.le_of_eq length.symm)), again]

theorem decompress_ok_iff {compressed expected : Nat} :
    decompress codecs data compressed expected = .ok (out, infos) ↔
      compressed ≤ data.size ∧ ∃ blocks, Split codecs (data.extract 0 compressed) blocks ∧
        (blocks.map fun block => block.piece.size).sum = expected ∧
        out = Basket.joined (blocks.map WrittenBlock.piece) ∧
        infos = blocks.map WrittenBlock.info := by
  constructor
  · intro ran
    obtain ⟨-, -, total⟩ := decompress_ok ran
    unfold decompress at ran
    split at ran
    · cases ran
    rename_i inside
    have inside : compressed ≤ data.size := Nat.le_of_not_lt inside
    obtain ⟨⟨content, found⟩, all, ran⟩ := bind_ok ran
    dsimp only at ran
    split at ran
    · cases ran
    cases ran
    have enough : (data.extract 0 compressed).size ≤ 0 + compressed := by
      rw [Array.size_extract_of_le inside]
      omega
    obtain ⟨blocks, split, joined, rfl⟩ := exists_of_readAll all (Nat.zero_le _) enough
    rw [Array.extract_size] at split
    rw [Array.empty_append] at joined
    rw [List.nil_append, List.map_map] at total
    exact ⟨inside, blocks, split, total, joined, List.nil_append _⟩
  · rintro ⟨inside, blocks, split, total, rfl, rfl⟩
    have length : (data.extract 0 compressed).size = compressed := by
      rw [Array.size_extract_of_le inside, Nat.sub_zero]
    have size : (Basket.joined (blocks.map WrittenBlock.piece)).size = expected := by
      rw [← total, Basket.size_joined, List.map_map]
      rfl
    have all := WrittenBlock.decompress_bytes split.good
    rw [← split.bytes, length, size, ← decompress_extract inside] at all
    exact all

/-- **The grammar of compressed data.**  With any codecs, undoing succeeds if the first bytes are
blocks one behind the other that hold what was expected, and only then; it gives what they hold, and
tells of each of them in order.  The bytes are such blocks in one way only.  What stands behind them
does not matter, compressed data behind others are undone to the one behind the other, and the
sizes that are told of add up to what was asked for. -/
theorem decompress_grammar (codecs : Algorithm → Codec) :
    (∀ data compressed expected out infos,
      decompress codecs data compressed expected = .ok (out, infos) ↔
        compressed ≤ data.size ∧ ∃ blocks, Split codecs (data.extract 0 compressed) blocks ∧
          (blocks.map fun block => block.piece.size).sum = expected ∧
          out = Basket.joined (blocks.map WrittenBlock.piece) ∧
          infos = blocks.map WrittenBlock.info) ∧
    (∀ bytes blocks others, Split codecs bytes blocks → Split codecs bytes others →
      blocks = others) ∧
    (∀ data other compressed expected, compressed ≤ data.size → compressed ≤ other.size →
      data.extract 0 compressed = other.extract 0 compressed →
        decompress codecs data compressed expected =
          decompress codecs other compressed expected) ∧
    (∀ front behind compressed first second out out' infos infos',
      decompress codecs front front.size first = .ok (out, infos) →
      decompress codecs behind compressed second = .ok (out', infos') →
        decompress codecs (front ++ behind) (front.size + compressed) (first + second) =
          .ok (out ++ out', infos ++ infos')) ∧
    (∀ data compressed expected out infos,
      decompress codecs data compressed expected = .ok (out, infos) →
        (infos.map BlockInfo.compressed).sum = compressed ∧
        (infos.map BlockInfo.uncompressed).sum = expected) := by
  refine ⟨fun _ _ _ _ _ => decompress_ok_iff, fun _ _ _ => Split.unique, ?_, ?_, ?_⟩
  · intro data other compressed expected inside inside' same
    rw [decompress_extract inside, decompress_extract inside', same]
  · intro front behind compressed first second out out' infos infos' ran ran'
    obtain ⟨-, blocks, split, rfl, rfl, rfl⟩ := decompress_ok_iff.1 ran
    obtain ⟨inside, others, split', rfl, rfl, rfl⟩ := decompress_ok_iff.1 ran'
    rw [Array.extract_size] at split
    refine decompress_ok_iff.2 ⟨?_, blocks ++ others, ?_, ?_, ?_, ?_⟩
    · rw [Array.size_append]
      omega
    · have cut : (front ++ behind).extract 0 (front.size + compressed) =
          front ++ behind.extract 0 compressed := by
        rw [Bytes.extract_split (front ++ behind) (Nat.zero_le front.size) (Nat.le_add_right _ _),
          Array.extract_append_left, Array.extract_append_right, Array.extract_size]
      rw [cut]
      exact split.append split'
    · rw [List.map_append, List.sum_append]
    · simp
    · rw [List.map_append]
  · intro data compressed expected out infos ran
    exact (decompress_ok ran).2

/-- a block behind itself -/
theorem decompress_grammar_twice :
    decompress Codec.standard (Basket.pairBlock.bytes ++ Basket.pairBlock.bytes)
      (Basket.pairBlock.bytes.size + Basket.pairBlock.bytes.size) (19 + 19) =
        .ok (Basket.pairRaw ++ Basket.pairRaw, [Basket.pairBlock.info, Basket.pairBlock.info]) := by
  obtain ⟨grammar, -, -, append, -⟩ := decompress_grammar Codec.standard
  have split : Split Codec.standard
      (Basket.pairBlock.bytes.extract 0 Basket.pairBlock.bytes.size) [Basket.pairBlock] :=
    ⟨List.forall_mem_singleton.2 Basket.good_pairBlock, by decide +kernel⟩
  have once := (grammar Basket.pairBlock.bytes Basket.pairBlock.bytes.size 19 Basket.pairRaw
    [Basket.pairBlock.info]).2 ⟨Nat.le_refl _, [Basket.pairBlock], split, rfl, rfl, rfl⟩
  exact append _ _ _ _ _ _ _ _ _ once once

end Block

end Baskets
