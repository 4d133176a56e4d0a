import Baskets.Block
import Baskets.Proofs.Basket.Entries
import Baskets.Proofs.Scan

/-!
# Blocks that were written

A block holds a piece of the payload, and its codec gives the piece back.  However a payload was cut
into pieces, and whatever algorithm was chosen for each of them, undoing the blocks one after the
other gives the payload.
-/

namespace Baskets

/-- a block: the algorithm, the method and the payload with what stands in front of it, and the
piece that it holds -/
structure WrittenBlock where
  algorithm : Algorithm
  method : UInt8
  checksum : Bytes
  payload : Bytes
  piece : Bytes

def Algorithm.tag : Algorithm → Bytes
  | .zlib => #[0x5a, 0x4c]
  | .lzma => #[0x58, 0x5a]
  | .lz4 => #[0x4c, 0x34]
  | .zstd => #[0x5a, 0x53]

@[simp]
theorem Algorithm.ofTag_tag (algorithm : Algorithm) : Algorithm.ofTag algorithm.tag = .ok algorithm := by
  cases algorithm <;> rfl

@[simp] theorem Algorithm.size_tag (algorithm : Algorithm) : algorithm.tag.size = 2 := by
  cases algorithm <;> rfl

@[simp] theorem ok_bind {ε α β : Type} (a : α) (f : α → Except ε β) :
    (Except.ok a >>= f) = f a := rfl

namespace WrittenBlock

variable (block : WrittenBlock)

/-- what stands behind the header of the block -/
def stored : Bytes := block.checksum ++ block.payload

/-- a size in a header, the least byte first -/
def sizeBytes (n : Nat) : Bytes := (Bytes.littleOf 3 n).toArray

def bytes : Bytes :=
  block.algorithm.tag ++ (#[block.method] ++ (sizeBytes block.stored.size ++
    (sizeBytes block.piece.size ++ block.stored)))

/-- what is reported of the block -/
def info : BlockInfo where
  algorithm := block.algorithm
  compressed := 9 + block.stored.size
  uncompressed := block.piece.size

/-- the sizes fit into three bytes, only LZ4 has a checksum, and the codec gives the piece -/
structure Good (codecs : Algorithm → Codec) (block : WrittenBlock) : Prop where
  stored : block.stored.size < 256 ^ 3
  piece : block.piece.size < 256 ^ 3
  checksum : block.checksum.size = if block.algorithm = .lz4 then 8 else 0
  undone : codecs block.algorithm block.payload block.piece.size = some block.piece

variable {block : WrittenBlock} {codecs : Algorithm → Codec}

@[simp] theorem size_sizeBytes (n : Nat) : (sizeBytes n).size = 3 := Bytes.length_littleOf 3 n

@[simp] theorem size_bytes : block.bytes.size = 9 + block.stored.size := by
  unfold bytes
  rw [Array.size_append, Array.size_append, Array.size_append, Array.size_append,
    Algorithm.size_tag, size_sizeBytes, size_sizeBytes]
  show 2 + (1 + (3 + (3 + _))) = _
  omega

theorem little_sizeBytes {n : Nat} (fits : n < 256 ^ 3) : Bytes.little (sizeBytes n) = n := by
  unfold sizeBytes
  rw [Bytes.little_littleOf, Nat.mod_eq_of_lt fits]

/-- what a codec undoes behind a checksum -/
theorem undo_checksummed {checksum payload piece : Bytes} {size : Nat} (eight : checksum.size = 8)
    (undone : codecs .lz4 payload size = some piece) :
    Block.undo codecs .lz4 (checksum ++ payload) size = .ok piece := by
  have rest : (checksum ++ payload).extract 8 (checksum ++ payload).size = payload := by
    rw [← eight, Array.size_append, Array.extract_append_right]
    exact Array.extract_size
  have long : ¬ (checksum ++ payload).size < 8 := by
    rw [Array.size_append]
    omega
  unfold Block.undo
  dsimp only
  rw [if_neg long, rest, undone]

/-- what a codec undoes without one -/
theorem undo_plain {algorithm : Algorithm} {payload piece : Bytes} {size : Nat}
    (other : algorithm ≠ .lz4) (undone : codecs algorithm payload size = some piece) :
    Block.undo codecs algorithm payload size = .ok piece := by
  unfold Block.undo
  cases algorithm with
  | lz4 => exact absurd rfl other
  | zlib | lzma | zstd =>
    dsimp only
    rw [undone]

theorem undo_stored (good : block.Good codecs) :
    Block.undo codecs block.algorithm block.stored block.piece.size = .ok block.piece := by
  have size := good.checksum
  have undone := good.undone
  unfold stored
  by_cases lz4 : block.algorithm = .lz4
  · rw [if_pos lz4] at size
    rw [lz4] at undone ⊢
    exact undo_checksummed size undone
  · rw [if_neg lz4] at size
    rw [Array.eq_empty_of_size_eq_zero size, Array.empty_append]
    exact undo_plain lz4 undone

/-- a block is read where it stands -/
theorem read_bytes (good : block.Good codecs) {data : Bytes} {offset : Nat}
    (has : Cursor.Has { data, pos := offset } block.bytes) (index : Nat) :
    Block.read codecs data offset index = .ok (block.piece, block.info) := by
  have inside : offset + block.bytes.size ≤ data.size := has.inside
  rw [size_bytes] at inside
  have tag : data.extract offset (offset + 2) = block.algorithm.tag := by
    have cut := has.left.extract
    rw [Algorithm.size_tag] at cut
    exact cut
  have afterTag : Cursor.Has { data, pos := offset + 2 } (#[block.method] ++
      (sizeBytes block.stored.size ++ (sizeBytes block.piece.size ++ block.stored))) := by
    have right := has.right
    unfold Cursor.past at right
    rw [Algorithm.size_tag] at right
    exact right
  have compressed : data.extract (offset + 3) (offset + 6) = sizeBytes block.stored.size :=
    afterTag.right.left.extract
  have size : data.extract (offset + 6) (offset + 9) = sizeBytes block.piece.size :=
    afterTag.right.right.left.extract
  have stored : data.extract (offset + 9) (offset + 9 + block.stored.size) = block.stored :=
    afterTag.right.right.right.extract
  have room : ¬ data.size < offset + Block.headerSize := by
    show ¬ data.size < offset + 9
    omega
  have whole : ¬ data.size < offset + Block.headerSize + block.stored.size := by
    show ¬ data.size < offset + 9 + block.stored.size
    omega
  unfold Block.read
  dsimp only
  rw [if_neg room, tag, Algorithm.ofTag_tag, compressed, size, little_sizeBytes good.stored,
    little_sizeBytes good.piece, ok_bind, if_neg whole]
  show (Block.undo codecs block.algorithm
    (data.extract (offset + 9) (offset + 9 + block.stored.size)) block.piece.size >>= _) = _
  rw [stored, undo_stored good, ok_bind, if_neg (not_not.2 rfl)]
  rfl

/-- blocks are undone to their pieces -/
theorem readAll_bytes {blocks : List WrittenBlock} (good : ∀ block ∈ blocks, block.Good codecs)
    {data : Bytes} {offset : Nat}
    (has : Cursor.Has { data, pos := offset } (Basket.joined (blocks.map bytes)))
    (stop : data.size = offset + (Basket.joined (blocks.map bytes)).size) {fuel : Nat}
    (enough : blocks.length ≤ fuel) (out : Bytes) (done : List BlockInfo) :
    Block.readAll codecs data fuel offset out done =
      .ok (out ++ Basket.joined (blocks.map piece), done ++ blocks.map info) := by
  induction blocks generalizing offset fuel out done with
  | nil =>
    have ended : data.size ≤ offset := Nat.le_of_eq stop
    have nothing : out ++ Basket.joined (([] : List WrittenBlock).map piece) = out :=
      Array.append_empty
    rw [nothing, List.map_nil, List.append_nil]
    cases fuel with
    | zero => rfl
    | succ fuel =>
      unfold Block.readAll
      rw [if_pos ended]
  | cons block rest ih =>
    obtain ⟨here, others⟩ := List.forall_mem_cons.1 good
    have has : Cursor.Has { data, pos := offset }
      (block.bytes ++ Basket.joined (rest.map bytes)) := has
    have stop : data.size = offset + (block.bytes ++ Basket.joined (rest.map bytes)).size := stop
    rw [Array.size_append] at stop
    have size := block.size_bytes
    obtain ⟨fuel, rfl⟩ : ∃ less, fuel = less + 1 :=
      ⟨fuel - 1, by rw [List.length_cons] at enough; omega⟩
    have before : ¬ data.size ≤ offset := by omega
    have onward : offset + block.info.compressed = offset + block.bytes.size := by
      rw [size]
      rfl
    have right : Cursor.Has { data, pos := offset + block.bytes.size }
      (Basket.joined (rest.map bytes)) := has.right
    have tail := ih others right (by omega) (Nat.le_of_succ_le_succ enough) (out ++ block.piece)
      (done ++ [block.info])
    unfold Block.readAll
    rw [if_neg before, read_bytes here has.left, ok_bind]
    dsimp only
    rw [onward, tail, Array.append_assoc, List.append_assoc]
    rfl

theorem length_le_size (blocks : List WrittenBlock) :
    blocks.length ≤ (Basket.joined (blocks.map bytes)).size := by
  induction blocks with
  | nil => exact Nat.zero_le _
  | cons block rest ih =>
    show rest.length + 1 ≤ (block.bytes ++ Basket.joined (rest.map bytes)).size
    rw [Array.size_append, size_bytes]
    omega

theorem decompress_bytes {blocks : List WrittenBlock} (good : ∀ block ∈ blocks, block.Good codecs) :
    Block.decompress codecs (Basket.joined (blocks.map bytes))
      (Basket.joined (blocks.map bytes)).size (Basket.joined (blocks.map piece)).size =
        .ok (Basket.joined (blocks.map piece), blocks.map info) := by
  have has := Cursor.has_all (Basket.joined (blocks.map bytes))
  have all := readAll_bytes good has (Nat.zero_add _).symm (length_le_size blocks) #[] []
  rw [Array.empty_append, List.nil_append] at all
  unfold Block.decompress
  rw [if_neg (Nat.lt_irrefl _)]
  dsimp only
  rw [Array.extract_size, all, ok_bind]
  dsimp only
  rw [if_neg (not_not.2 rfl)]
  rfl

end WrittenBlock

end Baskets
