import Baskets.Basket
import Baskets.Proofs.Reading.Run

/-!
# No slice goes out of range

`Array.extract` gives what there is of a slice, so the definitions of decoding would not show a
slice that goes out of range.  Here they are written once more, over results that break off at such
a slice (`Sliced`, `SlicedScan`): then there is neither a value nor a fault.  Decoding never breaks
off, and comes to the same (`SlicedScan.is_ofHeader`, `Sliced.is_decode`).
-/

namespace Baskets

/-- a value or a fault, or nothing when a slice went out of range -/
abbrev Sliced (ε α : Type) := ExceptT ε Option α

/-- a scan that breaks off when a slice goes out of range -/
abbrev SlicedScan (α : Type) := ExceptT Fault (StateT Cursor Option) α

/-! ## results -/

namespace Sliced

variable {ε α β : Type}

def of (result : Except ε α) : Sliced ε α := ExceptT.mk (some result)

def slice (data : Bytes) (start stop : Nat) : Sliced ε Bytes :=
  ExceptT.lift (Basket.slice? data start stop)

/-- the result does not break off, and is the other -/
def Is (sliced : Sliced ε α) (result : Except ε α) : Prop := sliced.run = some result

theorem is_of (result : Except ε α) : Is (of result) result := rfl

theorem is_slice {data : Bytes} {start stop : Nat} (order : start ≤ stop)
    (inside : stop ≤ data.size) :
    Is (slice data start stop : Sliced ε Bytes) (.ok (data.extract start stop)) := by
  have found : Basket.slice? data start stop = some (data.extract start stop) :=
    if_pos ⟨order, inside⟩
  unfold Is slice
  rw [found]
  rfl

theorem Is.bind {s : Sliced ε α} {result : Except ε α} {f : α → Sliced ε β}
    {g : α → Except ε β} (first : Is s result) (rest : ∀ a, result = .ok a → Is (f a) (g a)) :
    Is (s >>= f) (result >>= g) := by
  unfold Is at first ⊢
  rw [ExceptT.run_bind, first]
  cases result with
  | error fault => rfl
  | ok a => exact rest a rfl

/-- what follows a slice in range -/
theorem Is.after {s : Sliced ε α} {a : α} {f : α → Sliced ε β} {result : Except ε β}
    (first : Is s (.ok a)) (rest : Is (f a) result) : Is (s >>= f) result := by
  unfold Is at first ⊢
  rw [ExceptT.run_bind, first]
  exact rest

/-- with another name for faults -/
theorem Is.adapt {ε' : Type} {s : Sliced ε α} {result : Except ε α} (same : Is s result)
    (rename : ε → ε') : Is (s.adapt rename) (result.mapError rename) := by
  unfold Is at same ⊢
  show s.run.map (Except.mapError rename) = _
  rw [same]
  rfl

/-- results with the same condition -/
theorem is_ite {condition : Prop} [Decidable condition] {s t : Sliced ε α}
    {result other : Except ε α} (yes : condition → Is s result) (no : ¬condition → Is t other) :
    Is (if condition then s else t) (if condition then result else other) := by
  split
  · exact yes ‹_›
  · exact no ‹_›

end Sliced

/-! ## scans -/

namespace SlicedScan

variable {α β : Type}

/-- a scan without slices -/
def of (scan : Scan α) : SlicedScan α := ExceptT.mk fun c => some (scan.run c)

/-- a result, as a scan that does not move -/
def result (sliced : Sliced Fault α) : SlicedScan α :=
  ExceptT.mk fun c => sliced.run.map fun result => (result, c)

/-- the scan does not break off, and is the other -/
def Is (sliced : SlicedScan α) (scan : Scan α) : Prop :=
  ∀ c : Cursor, sliced.run c = some (scan.run c)

theorem is_of (scan : Scan α) : Is (of scan) scan := fun _ => rfl

theorem is_result {sliced : Sliced Fault α} {plain : Except Fault α}
    (same : Sliced.Is sliced plain) : Is (result sliced) (Scan.ofExcept plain) := by
  intro c
  show sliced.run.map _ = _
  rw [same]
  cases plain <;> rfl

theorem Is.after {sliced : Sliced Fault α} {a : α} {f : α → SlicedScan β} {scan : Scan β}
    (first : Sliced.Is sliced (.ok a)) (rest : Is (f a) scan) :
    Is (result sliced >>= f) scan := by
  intro c
  show (sliced.run.map _).bind _ = _
  rw [first]
  exact rest c

theorem Is.stop {sliced : Sliced Fault α} {fault : Fault} {f : α → SlicedScan β}
    (first : Sliced.Is sliced (.error fault)) : Is (result sliced >>= f) (throw fault) := by
  intro c
  show (sliced.run.map _).bind _ = _
  rw [first]
  rfl

theorem Is.bind {s : SlicedScan α} {scan : Scan α} {f : α → SlicedScan β} {g : α → Scan β}
    (first : Is s scan) (rest : ∀ a, Is (f a) (g a)) : Is (s >>= f) (scan >>= g) := by
  intro c
  rw [Scan.run_bind]
  show (s.run c).bind _ = _
  rw [first]
  cases scan.run c with
  | mk found d =>
    cases found with
    | error fault => rfl
    | ok a => exact rest a d

/-- scans with the same condition -/
theorem is_ite {condition : Prop} [Decidable condition] {s t : SlicedScan α} {scan other : Scan α}
    (yes : condition → Is s scan) (no : ¬condition → Is t other) :
    Is (if condition then s else t) (if condition then scan else other) := by
  split
  · exact yes ‹_›
  · exact no ‹_›

/-! ### words -/

def take (n : Nat) : SlicedScan Bytes := do
  let c ← get
  if c.pos + n ≤ c.data.size then
    set { c with pos := c.pos + n }
    result (Sliced.slice c.data c.pos (c.pos + n))
  else throw (.underflow c.pos n c.remaining)

def unsigned (width : Nat) : SlicedScan Nat := do return (← take width).big

def signed (width : Nat) : SlicedScan Int := do return (← take width).bigSigned

theorem is_take (n : Nat) : Is (take n) (Scan.take n) := by
  intro c
  show (if c.pos + n ≤ c.data.size then _ else _ : SlicedScan Bytes).run c =
    some ((if c.pos + n ≤ c.data.size then _ else _ : Scan Bytes).run c)
  by_cases inside : c.pos + n ≤ c.data.size
  · rw [if_pos inside, if_pos inside]
    have cut : (Sliced.slice c.data c.pos (c.pos + n) : Sliced Fault Bytes).run = _ :=
      Sliced.is_slice (Nat.le_add_right _ _) inside
    show (result (Sliced.slice c.data c.pos (c.pos + n))).run { c with pos := c.pos + n } = _
    unfold result
    rw [ExceptT.run_mk, cut]
    rfl
  · rw [if_neg inside, if_neg inside]
    rfl

theorem is_unsigned (width : Nat) : Is (unsigned width) (Scan.unsigned width) :=
  (is_take width).bind fun _ _ => rfl

theorem is_signed (width : Nat) : Is (signed width) (Scan.signed width) :=
  (is_take width).bind fun _ _ => rfl

/-- a header, word by word -/
def header : SlicedScan BasketHeader := do
  let start ← of Scan.pos
  let totalBytes ← signed 4
  let headerVersion ← signed 2
  let objectLength ← signed 4
  let datime ← unsigned 4
  let headerLength ← signed 2
  let cycle ← signed 2
  if headerLength < (BasketHeader.frontLength + BasketHeader.backLength : Nat) then
    throw (.malformed (.keyTooShort headerLength))
  of (Scan.moveTo (start + (headerLength.toNat - BasketHeader.backLength)))
  let version ← unsigned 2
  let bufferSize ← signed 4
  let entrySize ← signed 4
  let entryCount ← signed 4
  let lastOffset ← signed 4
  of (Scan.skip 1)
  return { totalBytes, headerVersion, objectLength, datime, headerLength, cycle, version,
           bufferSize, entrySize, entryCount, lastOffset }

theorem is_header : Is header BasketHeader.scan := by
  unfold header BasketHeader.scan
  refine (is_of _).bind fun start => ?_
  refine (is_signed 4).bind fun totalBytes => ?_
  refine (is_signed 2).bind fun headerVersion => ?_
  refine (is_signed 4).bind fun objectLength => ?_
  refine (is_unsigned 4).bind fun datime => ?_
  refine (is_signed 2).bind fun headerLength => ?_
  refine (is_signed 2).bind fun cycle => ?_
  dsimp only
  refine is_ite (fun _ _ => rfl) fun _ => ?_
  refine (is_of _).bind fun _ => ?_
  refine (is_unsigned 2).bind fun version => ?_
  refine (is_signed 4).bind fun bufferSize => ?_
  refine (is_signed 4).bind fun entrySize => ?_
  refine (is_signed 4).bind fun entryCount => ?_
  refine (is_signed 4).bind fun lastOffset => ?_
  exact (is_of _).bind fun _ _ => rfl

end SlicedScan

/-! ## blocks and footers -/

namespace Sliced

section
variable (codecs : Algorithm → Codec)

def answer (algorithm : Algorithm) : Option Bytes → Sliced BlockFault Bytes
  | some out => return out
  | none => throw (.codec algorithm)

def undo (algorithm : Algorithm) (payload : Bytes) (size : Nat) : Sliced BlockFault Bytes :=
  match algorithm with
  | .lz4 =>
    if payload.size < 8 then throw .shortChecksum
    else do answer .lz4 (codecs .lz4 (← slice payload 8 payload.size) size)
  | algorithm => answer algorithm (codecs algorithm payload size)

def read (data : Bytes) (offset index : Nat) : Sliced BlockFault (Bytes × BlockInfo) := do
  let start := offset + Block.headerSize
  if data.size < start then throw (.shortHeader offset data.size)
  let algorithm ← of (Algorithm.ofTag (← slice data offset (offset + 2)))
  let compressed := Bytes.little (← slice data (offset + 3) (offset + 6))
  let size := Bytes.little (← slice data (offset + 6) (offset + 9))
  if data.size < start + compressed then throw (.shortBlock compressed (data.size - start))
  let out ← undo codecs algorithm (← slice data start (start + compressed)) size
  if out.size ≠ size then throw (.blockLength index algorithm compressed out.size size)
  return (out, { algorithm, compressed := Block.headerSize + compressed, uncompressed := size })

def readAll (data : Bytes) : (fuel offset : Nat) → (out : Bytes) → (done : List BlockInfo) →
    Sliced BlockFault (Bytes × List BlockInfo)
  | 0, _, out, done => return (out, done)
  | fuel + 1, offset, out, done =>
    if data.size ≤ offset then return (out, done)
    else do
      let (content, info) ← read codecs data offset done.length
      readAll data fuel (offset + info.compressed) (out ++ content) (done ++ [info])

def decompress (data : Bytes) (compressed expected : Nat) :
    Sliced BlockFault (Bytes × List BlockInfo) := do
  if data.size < compressed then throw (.shortPayload compressed data.size)
  let (out, blocks) ← readAll codecs (← slice data 0 compressed) compressed 0 #[] []
  if out.size ≠ expected then throw (.totalLength out.size expected)
  return (out, blocks)

end

def entryStarts (headerLength : Int) (footer : Bytes) :
    (count pos : Nat) → Sliced Fault (List Nat)
  | 0, _ => return []
  | count + 1, pos => do
    let first ← of (entryStart headerLength (← slice footer pos (pos + 4)))
    return first :: (← entryStarts headerLength footer count (pos + 4))

def entryBounds (h : BasketHeader) (border : Nat) (footer : Bytes) : Sliced Fault (List Nat) := do
  if footer.size % 4 ≠ 0 ∨ footer.size < 8 then throw (.malformed (.footerRagged footer.size))
  let found := footer.size / 4 - 1
  let expected := h.entryCount.toNat + 1
  if found ≠ expected then throw (.malformed (.footerCount found expected))
  return (← entryStarts h.headerLength footer h.entryCount.toNat 4) ++ [border]

def standingBounds (h : BasketHeader) (border : Nat) (raw : Bytes) :
    Sliced Fault (Option (List Nat)) := do
  if (border : Int) = h.objectLength then return none
  if raw.size < border then throw (.malformed (.borderPastPayload border raw.size))
  return some (← entryBounds h border (← slice raw border raw.size))

section
variable {codecs : Algorithm → Codec}

theorem is_answer (algorithm : Algorithm) (out : Option Bytes) : Is (answer algorithm out)
    (match out with
      | some out => .ok out
      | none => .error (.codec algorithm)) := by
  cases out <;> rfl

theorem is_undo (algorithm : Algorithm) (payload : Bytes) (size : Nat) :
    Is (undo codecs algorithm payload size) (Block.undo codecs algorithm payload size) := by
  unfold undo Block.undo
  cases algorithm with
  | lz4 =>
    refine is_ite (fun _ => rfl) fun long => ?_
    exact (is_slice (by omega) (Nat.le_refl _)).after (is_answer _ _)
  | zlib | lzma | zstd => exact is_answer _ _

theorem is_read (data : Bytes) (offset index : Nat) :
    Is (read codecs data offset index) (Block.read codecs data offset index) := by
  unfold read Block.read
  dsimp only
  refine is_ite (fun _ => rfl) fun header => ?_
  have inside : offset + 9 ≤ data.size := by
    unfold Block.headerSize at header
    omega
  refine (is_slice (by omega) (by omega)).after ?_
  refine (is_of _).bind fun algorithm _ => ?_
  refine (is_slice (by omega) (by omega)).after ?_
  refine (is_slice (by omega) (by omega)).after ?_
  refine is_ite (fun _ => rfl) fun whole => ?_
  refine (is_slice (by omega) (by omega)).after ?_
  refine (is_undo _ _ _).bind fun out _ => ?_
  exact is_ite (fun _ => rfl) fun _ => rfl

theorem is_readAll (data : Bytes) (fuel offset : Nat) (out : Bytes) (done : List BlockInfo) :
    Is (readAll codecs data fuel offset out done)
      (Block.readAll codecs data fuel offset out done) := by
  induction fuel generalizing offset out done with
  | zero => rfl
  | succ fuel ih =>
    unfold readAll Block.readAll
    refine is_ite (fun _ => rfl) fun _ => ?_
    exact (is_read data offset done.length).bind fun block _ => ih _ _ _

theorem is_decompress (data : Bytes) (compressed expected : Nat) :
    Is (decompress codecs data compressed expected)
      (Block.decompress codecs data compressed expected) := by
  unfold decompress Block.decompress
  refine is_ite (fun _ => rfl) fun inside => ?_
  refine (is_slice (Nat.zero_le _) (by omega)).after ?_
  refine (is_readAll _ _ _ _ _).bind fun blocks _ => ?_
  exact is_ite (fun _ => rfl) fun _ => rfl

end

theorem is_entryStarts (headerLength : Int) {footer : Bytes} {count pos : Nat}
    (inside : pos + 4 * count ≤ footer.size) : Is (entryStarts headerLength footer count pos)
      (Baskets.entryStarts headerLength footer count pos) := by
  induction count generalizing pos with
  | zero => rfl
  | succ count ih =>
    unfold entryStarts Baskets.entryStarts
    refine (is_slice (by omega) (by omega)).after ?_
    refine (is_of _).bind fun first _ => ?_
    exact (ih (by omega)).bind fun others _ => rfl

theorem is_entryBounds (h : BasketHeader) (border : Nat) (footer : Bytes) :
    Is (entryBounds h border footer) (Baskets.entryBounds h border footer) := by
  unfold entryBounds Baskets.entryBounds
  refine is_ite (fun _ => rfl) fun whole => ?_
  dsimp only
  refine is_ite (fun _ => rfl) fun counted => ?_
  exact (is_entryStarts h.headerLength (by omega)).bind fun starts _ => rfl

theorem is_standingBounds (h : BasketHeader) (border : Nat) (raw : Bytes) :
    Is (standingBounds h border raw) (BasketContents.standingBounds h border raw) := by
  unfold standingBounds BasketContents.standingBounds
  refine is_ite (fun _ => rfl) fun _ => ?_
  refine is_ite (fun _ => rfl) fun inside => ?_
  refine (is_slice (by omega) (Nat.le_refl _)).after ?_
  exact (is_entryBounds _ _ _).bind fun bounds _ => rfl

end Sliced

/-! ## contents -/

namespace SlicedScan

section
variable (codecs : Algorithm → Codec)

def embeddedBounds (h : BasketHeader) (border : Nat) : SlicedScan (Option (List Nat)) := do
  if h.hasEmbeddedFooter then
    if h.entryCount < 0 then throw (.malformed (.entriesNegative h.entryCount))
    let footer ← take (8 + 4 * h.entryCount.toNat)
    let bounds ← result (Sliced.entryBounds h border footer)
    of (Scan.stepBack 4)
    return some bounds
  else return none

def embedded (h : BasketHeader) (border : Nat) : SlicedScan BasketContents := do
  let offsets ← embeddedBounds h border
  if h.headerLength < 0 then throw (.malformed (.keyNegative h.headerLength))
  of (Scan.skip h.headerLength.toNat)
  return { data := ← take border, offsets }

def payload (stored size : Nat) : SlicedScan (Bytes × Option (List BlockInfo)) := do
  let bytes ← take stored
  if stored = size then return (bytes, none)
  else do
    let (raw, blocks) ← result (Sliced.decompress codecs bytes stored size |>.adapt Fault.block)
    return (raw, some blocks)

def standing (h : BasketHeader) (border : Nat) : SlicedScan BasketContents := do
  if h.objectLength < 0 then throw (.malformed (.objectNegative h.objectLength))
  let stored := (h.totalBytes - h.headerLength).toNat
  let (raw, blocks) ← payload codecs stored h.objectLength.toNat
  let offsets ← result (Sliced.standingBounds h border raw)
  let data ← result (Sliced.slice raw 0 (min border raw.size))
  return { data, raw := some raw, offsets, blocks }

def contents (h : BasketHeader) : SlicedScan BasketContents := do
  if h.border < 0 then throw (.malformed (.borderNegative h.lastOffset h.headerLength))
  if h.isEmbedded then embedded h h.border.toNat else standing codecs h h.border.toNat

def ofHeader (ctx : BasketContext) (header : BasketHeader) : SlicedScan Basket := do
  if ctx.readContents then
    return { header, number := ctx.number, contents := some (← contents codecs header) }
  else return { header, number := ctx.number }

end

section
variable {codecs : Algorithm → Codec}

theorem is_embeddedBounds (h : BasketHeader) (border : Nat) :
    Is (embeddedBounds h border) (BasketContents.embeddedBounds h border) := by
  unfold embeddedBounds BasketContents.embeddedBounds
  refine is_ite (fun _ => ?_) fun _ _ => rfl
  refine is_ite (fun _ _ => rfl) fun _ => ?_
  refine (is_take _).bind fun footer => ?_
  refine (is_result (Sliced.is_entryBounds h border footer)).bind fun bounds => ?_
  exact (is_of _).bind fun _ _ => rfl

theorem is_embedded (h : BasketHeader) (border : Nat) :
    Is (embedded h border) (BasketContents.embedded h border) := by
  unfold embedded BasketContents.embedded
  refine (is_embeddedBounds h border).bind fun offsets => ?_
  refine is_ite (fun _ _ => rfl) fun _ => ?_
  refine (is_of _).bind fun _ => ?_
  exact (is_take border).bind fun data _ => rfl

theorem is_payload (stored size : Nat) :
    Is (payload codecs stored size) (BasketContents.payload codecs stored size) := by
  unfold payload BasketContents.payload
  refine (is_take stored).bind fun bytes => ?_
  refine is_ite (fun _ _ => rfl) fun _ => ?_
  have same := (@Sliced.is_decompress codecs bytes stored size).adapt Fault.block
  cases undone : Block.decompress codecs bytes stored size with
  | ok found =>
    rw [undone] at same
    exact Is.after same fun _ => rfl
  | error cause =>
    rw [undone] at same
    exact Is.stop same

theorem extract_min (raw : Bytes) (border : Nat) :
    raw.extract 0 (min border raw.size) = raw.extract 0 border := by
  rcases Nat.le_total border raw.size with inside | past
  · rw [Nat.min_eq_left inside]
  · rw [Nat.min_eq_right past, Array.extract_size]
    exact (Array.extract_eq_self_of_le past).symm

theorem is_standing (h : BasketHeader) (border : Nat) :
    Is (standing codecs h border) (BasketContents.standing codecs h border) := by
  unfold standing BasketContents.standing
  refine is_ite (fun _ _ => rfl) fun _ => ?_
  dsimp only
  refine (is_payload _ _).bind fun payload => ?_
  refine (is_result (Sliced.is_standingBounds h border payload.1)).bind fun offsets => ?_
  refine Is.after (Sliced.is_slice (Nat.zero_le _) (Nat.min_le_right _ _)) ?_
  rw [extract_min]
  exact fun _ => rfl

theorem is_contents (h : BasketHeader) : Is (contents codecs h) (BasketContents.scan codecs h) := by
  unfold contents BasketContents.scan
  refine is_ite (fun _ _ => rfl) fun _ => ?_
  exact is_ite (fun _ => is_embedded h _) fun _ => is_standing h _

/-- no slice goes out of range behind a header, whatever the header says -/
theorem is_ofHeader (ctx : BasketContext) (header : BasketHeader) :
    Is (ofHeader codecs ctx header) (Basket.ofHeader codecs ctx header) := by
  unfold ofHeader Basket.ofHeader
  refine is_ite (fun _ => ?_) fun _ _ => rfl
  exact (is_contents header).bind fun contents _ => rfl

end

end SlicedScan

namespace Sliced

/-- a basket whose header is at the start of the bytes -/
def decode (codecs : Algorithm → Codec) (ctx : BasketContext) (bytes : Bytes) :
    Sliced Fault Basket :=
  let whole : SlicedScan Basket := do SlicedScan.ofHeader codecs ctx (← SlicedScan.header)
  ExceptT.mk ((whole.run { data := bytes }).map Prod.fst)

/-- no slice goes out of range in any bytes -/
theorem is_decode (codecs : Algorithm → Codec) (ctx : BasketContext) (bytes : Bytes) :
    Is (decode codecs ctx bytes) (Basket.decode codecs ctx bytes) := by
  have whole := SlicedScan.is_header.bind (@SlicedScan.is_ofHeader codecs ctx) { data := bytes }
  unfold Is decode Basket.decode
  rw [ExceptT.run_mk]
  show Option.map Prod.fst ((SlicedScan.header >>= SlicedScan.ofHeader codecs ctx).run _) = _
  rw [whole]
  rfl

end Sliced

end Baskets
