import Baskets.Proofs.Reading.Run
import Baskets.Proofs.Serial

/-!
# Reading undoes serialization

`Reading.Undoes` says of a reading what `Scan.Undoes` says of a scan, as long as no generator
watches.  What puts readings together undoes one stretch of bytes after the other, a reader of a
type undoes what `Serial` writes of it, and so on through the types.

Classes may hold themselves, so the readers of classes come in levels.  An object takes six bytes
for its header alone, and its parts have the rest: with half as many levels as there are bytes,
there is always one left for the parts.
-/

namespace Baskets

/-- a class with a layout has a newest one -/
theorem Registry.exists_latest? {registry : Registry} {className : String} {version : Nat}
    {layout : Layout} (known : registry.get? className version = some layout) :
    ∃ latest, registry.latest? className = some latest := by
  have there : layout ∈ registry.ofClass className := List.mem_of_find?_eq_some known
  exact ⟨_, List.getLast?_eq_some_getLast (List.ne_nil_of_mem there)⟩

namespace Reading

variable {α β : Type}

/-- the reading gives `a` and goes from `c` to `d` when it makes no decoder -/
def Takes (reading : Reading α) (c : Cursor) (a : α) (d : Cursor) : Prop :=
  reading.run { cursor := c } = (.ok a, { cursor := d })

/-- the reading gives `a` for these bytes, wherever they stand -/
def Undoes (reading : Reading α) (bytes : Bytes) (a : α) : Prop :=
  ∀ c : Cursor, c.Has bytes → reading.Takes c a (c.past bytes)

variable {a : α} {b : β} {c d e : Cursor} {front behind bytes : Bytes}

/-! ## sequences -/

theorem Takes.bind {r : Reading α} {f : α → Reading β} (first : r.Takes c a d)
    (second : (f a).Takes d b e) : (r >>= f).Takes c b e := by
  unfold Takes
  rw [run_bind, first]
  exact second

theorem Undoes.bind {r : Reading α} {f : α → Reading β} (first : r.Undoes front a)
    (second : (f a).Undoes behind b) : (r >>= f).Undoes (front ++ behind) b := by
  intro c has
  simpa using (first c has.left).bind (second _ has.right)

/-- a part that needs no bytes, before others -/
theorem Undoes.bindBefore {r : Reading α} {f : α → Reading β} (first : r.Undoes #[] a)
    (second : (f a).Undoes bytes b) : (r >>= f).Undoes bytes b := by
  rw [← @Array.empty_append _ bytes]
  exact first.bind second

/-- a part that needs no bytes, behind others -/
theorem Undoes.bindBehind {r : Reading α} {f : α → Reading β} (first : r.Undoes bytes a)
    (second : (f a).Undoes #[] b) : (r >>= f).Undoes bytes b := by
  rw [← @Array.append_empty _ bytes]
  exact first.bind second

theorem undoes_pure (a : α) : Undoes (pure a : Reading α) #[] a := fun _ _ => rfl

theorem undoes_contribute (f : Generator → Generator) : (contribute f).Undoes #[] () :=
  fun _ _ => rfl

theorem undoes_add (info : NodeInfo) : (add info).Undoes #[] () := undoes_contribute _

theorem undoes_leave : leave.Undoes #[] () := fun c _ => run_leave_none c

theorem takes_scan {s : Scan α} (takes : s.Takes c a d) : (scan s).Takes c a d := by
  unfold Takes
  simp [takes.run]

theorem undoes_scan {s : Scan α} (undoes : s.Undoes bytes a) : (scan s).Undoes bytes a :=
  fun c has => takes_scan (undoes c has)

theorem undoes_measured {s : Scan α} (undoes : s.Undoes bytes a) :
    (measured s).Undoes bytes (a, bytes.size) := by
  intro c has
  have length : (c.past bytes).pos - c.pos = bytes.size := Nat.add_sub_cancel_left _ _
  refine takes_scan (Scan.Takes.bind rfl (Scan.Takes.bind (undoes c has) ?_))
  rw [← length]
  exact Scan.Takes.bind rfl rfl

theorem undoes_looping {slot : Nat} {start : Instruction} {r : Reading α} (undoes : r.Undoes bytes a) :
    (looping slot start r).Undoes bytes a :=
  fun c has => Takes.bind (d := c) rfl ((undoes c has).bind rfl)

/-! ## headers -/

theorem takes_checkEnd_none {what : String} {start : Nat} : (checkEnd what start none).Takes c () c :=
  rfl

theorem takes_checkEnd {what : String} {start count : Nat} {header : VersionHeader}
    (counting : header.byteCount = some count) (ends : c.pos = start + 4 + count) :
    (checkEnd what start (some header)).Takes c () c := by
  unfold checkEnd
  rw [Option.bind_some, counting]
  refine Takes.bind (a := c.pos) rfl ?_
  rw [if_neg (not_not.2 ends)]
  rfl

/-- the check at the end of bytes that were counted -/
theorem takes_checkEnd_counted {what : String} {word : Nat} {body : Bytes} :
    (checkEnd what c.pos (some (.ofWords (some (2 + body.size)) word))).Takes
      (c.past (counted word body)) () (c.past (counted word body)) := by
  refine takes_checkEnd rfl ?_
  show c.pos + (counted word body).size = _
  rw [size_counted]
  omega

/-- a counted header, and what is read of it -/
theorem undoes_header {word size : Nat} (small : 2 + size < 2 ^ 30) (fits : word < 256 ^ 2) :
    (measured Scan.versionHeader).Undoes (countingHeader word size)
      (.ofWords (some (2 + size)) word, 6) := by
  have undoes := undoes_measured (Scan.undoes_countingHeader small fits)
  rw [size_countingHeader] at undoes
  exact undoes

/-- the reading passes over the header before a body, and a check of the end finds it there -/
def Opens (opening : Reading (Option VersionHeader × Nat)) (body bytes : Bytes) : Prop :=
  ∀ c : Cursor, c.Has bytes → ∃ header skipped d, opening.Takes c (header, skipped) d ∧
    d.Has body ∧ d.past body = c.past bytes ∧
    ∀ what, (checkEnd what c.pos header).Takes (c.past bytes) () (c.past bytes)

theorem opens_containerHeader {what : String} {ctx : Context} {body : Bytes}
    (framed : Framed ctx body bytes) : Opens (containerHeader what ctx) body bytes := by
  intro c has
  unfold containerHeader
  cases framed with
  | bare off =>
    rw [off]
    exact ⟨none, 0, c, rfl, has, rfl, fun _ => takes_checkEnd_none⟩
  | @headed word on fits plain small =>
    rw [on]
    refine ⟨_, 6, _, (undoes_header small fits c has.left).bind ?_, has.right,
      Cursor.past_append.symm, fun _ => takes_checkEnd_counted⟩
    show (if word.testBit 14 = true then _ else _ : Reading _).Takes _ _ _
    rw [plain]
    rfl

theorem opens_mapHeader {ctx : Context} {body : Bytes} (framed : FramedMap ctx body bytes) :
    Opens (mapHeader ctx) body bytes := by
  intro c has
  unfold mapHeader
  cases framed with
  | bare off =>
    rw [off]
    exact ⟨none, 0, c, rfl, has, rfl, fun _ => takes_checkEnd_none⟩
  | @headed word further on fits marked six small =>
    have skipping := Scan.undoes_skip further
    rw [six] at skipping
    rw [on]
    refine ⟨_, 6 + 6, _, (undoes_header small fits c has.left).bind ?_, has.right.right,
      ?_, fun _ => takes_checkEnd_counted⟩
    · show (if (!word.testBit 14) = true then _ else _ : Reading _).Takes _ _ _
      rw [marked]
      exact (undoes_scan skipping _ has.right.left).bind rfl
    · unfold counted
      simp

theorem undoes_container {what : String} {ctx : Context} {body : Nat → Reading α} {inner : Bytes}
    (framed : Framed ctx inner bytes) (inside : ∀ skipped, (body skipped).Undoes inner a) :
    (container what ctx body).Undoes bytes a := by
  intro c has
  obtain ⟨header, skipped, d, opened, standing, same, ends⟩ := opens_containerHeader framed c has
  have read := inside skipped d standing
  rw [same] at read
  refine Takes.bind (a := c.pos) (d := c) rfl ?_
  exact opened.bind (read.bind ((ends what).bind rfl))

/-! ## types of a fixed layout -/

section
variable (registry : Registry)

/-- the reader undoes what is written of a type, up to so many bytes -/
def Restores (limit : Nat) (type : StreamType) (reader : Reader) : Prop :=
  ∀ (field : Option String) (ctx : Context) (value : Value) (bytes : Bytes),
    Serial registry type ctx value bytes → bytes.size ≤ limit → (reader field ctx).Undoes bytes value

variable {registry} {limit : Nat}

theorem restores_number (p : Primitive) :
    Restores registry limit (.primitive p) fun _ _ => scan p.scan := by
  intro field ctx value bytes serial _
  cases serial with
  | number writes => exact undoes_scan (Primitive.undoes_scan writes)

theorem restores_primitive (p : Primitive) :
    Restores registry limit (.primitive p) (primitive p) := by
  intro field ctx value bytes serial small
  exact (undoes_add _).bindBefore (restores_number p field ctx value bytes serial small)

theorem restores_text (kind : TextKind) : Restores registry limit (.text kind) (text kind) := by
  intro field ctx value bytes serial _
  unfold text
  have body : ∀ {s : String} {bytes : Bytes} (skipped : Nat), WrittenText s bytes → (do
      add (Contribution.text skipped field ctx)
      return Value.text (← scan Scan.string) : Reading Value).Undoes bytes (.text s) := by
    intro s bytes skipped written
    refine (undoes_add _).bindBefore ?_
    exact (undoes_scan (Scan.undoes_string written)).bindBehind (undoes_pure _)
  cases serial with
  | tstring written => exact body 0 written
  | stdString written framed => exact undoes_container framed fun skipped => body skipped written

theorem restores_objectHead : Restores registry limit .object objectHead := by
  intro field ctx value bytes serial _
  cases serial with
  | @head _ unique bits _ written =>
    have head : (if ctx.objectHead then Scan.objectHead else pure (0, 0)).Undoes bytes
        (unique, bits) := by
      cases written with
      | absent off =>
        rw [off, if_neg Bool.false_ne_true]
        exact Scan.undoes_pure _
      | present on version counted number small referenced =>
        rw [if_pos on]
        exact Scan.undoes_objectHead version counted number small referenced
    refine (undoes_measured head).bindBehind ?_
    refine (undoes_contribute _).bindBefore ?_
    refine (undoes_add _).bindBefore ?_
    exact undoes_leave.bindBefore (undoes_pure _)

theorem restores_datime : Restores registry limit .datime datime := by
  intro field ctx value bytes serial _
  cases serial with
  | datime small =>
    refine (undoes_add _).bindBefore ?_
    exact (undoes_scan (Scan.undoes_unsigned small)).bindBehind (undoes_pure _)

theorem restores_time : Restores registry limit .time time := by
  intro field ctx value bytes serial _
  cases serial with
  | time fits framed =>
    refine undoes_container framed fun skipped => ?_
    refine (undoes_add _).bindBefore ?_
    exact (undoes_scan (Scan.undoes_signed fits)).bindBehind (undoes_pure _)

/-- bytes of no meaning -/
theorem undoes_filler {n : Nat} (size : bytes.size = n) : (scan (Scan.skip n)).Undoes bytes () := by
  rw [← size]
  exact undoes_scan (Scan.undoes_skip bytes)

theorem restores_ref : Restores registry limit .ref ref := by
  intro field ctx value bytes serial _
  cases serial with
  | ref two small six =>
    refine (undoes_add _).bindBefore ?_
    refine (undoes_filler two).bind ?_
    refine (undoes_scan (Scan.undoes_unsigned small)).bind ?_
    exact (undoes_filler six).bindBehind (undoes_pure _)

theorem undoes_references {refs : List Int} (fits : ∀ n ∈ refs, Bytes.Signed 4 n) :
    (times refs.length do return Value.int (← scan (Scan.signed 4)) : Reading (List Value)).Undoes
      (referenceBytes refs) (refs.map .int) := by
  induction refs with
  | nil => exact undoes_pure _
  | cons n rest ih =>
    have number := undoes_scan (Scan.undoes_signed (fits n List.mem_cons_self))
    have first : (do return Value.int (← scan (Scan.signed 4)) : Reading Value).Undoes
        (Bytes.signedOf 4 n) (.int n) := number.bindBehind (undoes_pure _)
    have others := ih fun m mem => fits m (List.mem_cons_of_mem _ mem)
    refine first.bind ?_
    exact others.bindBehind (undoes_pure _)

theorem restores_refArray : Restores registry limit .refArray refArray := by
  intro field ctx value bytes serial _
  cases serial with
  | @refArray _ name refs _ _ _ _ ten named count six fits framed =>
    refine undoes_container framed fun skipped => ?_
    refine (undoes_add _).bindBefore ?_
    refine (undoes_filler ten).bind ?_
    refine (undoes_scan (Scan.undoes_string named)).bind ?_
    refine (undoes_scan (Scan.undoes_signed count)).bind ?_
    refine (undoes_filler six).bind ?_
    rw [if_neg (Int.not_lt.2 (Int.natCast_nonneg _)), Int.toNat_natCast]
    exact (undoes_references fits).bindBehind (undoes_pure _)

/-! ## types of other types -/

theorem undoes_times {type : StreamType} {reader : Reader} {field : Option String} {ctx : Context}
    {values : List Value} (one : Restores registry limit type reader)
    (all : SerialAll registry type ctx values bytes) (small : bytes.size ≤ limit) :
    (times values.length (reader field ctx)).Undoes bytes values := by
  induction values generalizing bytes with
  | nil =>
    cases all
    exact undoes_pure _
  | cons value values ih =>
    cases all with
    | @cons _ _ _ _ front behind first rest =>
      rw [Array.size_append] at small
      have others := ih rest (by omega)
      refine (one field ctx value front first (by omega)).bind ?_
      exact others.bindBehind (undoes_pure _)

/-- the elements of a list, in whatever way they are told to the generator -/
theorem undoes_listed {type : StreamType} {reader : Reader} {field : Option String} {ctx : Context}
    {values : List Value} {info : NodeInfo} (one : Restores registry limit type reader)
    (all : SerialAll registry type ctx values bytes) (small : bytes.size ≤ limit) :
    (do
      addList type values.length info
      let items ← elements type values.length (reader field ctx)
      leaveList type
      return Value.list items : Reading Value).Undoes bytes (.list values) := by
  unfold addList elements leaveList
  cases kind : type.primitive? with
  | some number =>
    have here : type = .primitive number := by
      cases type <;> cases kind
      rfl
    subst here
    refine (undoes_add info).bindBefore ?_
    refine (@undoes_times _ _ _ _ _ field _ _ (restores_number number) all small).bindBehind ?_
    exact (undoes_pure _).bindBefore (undoes_pure _)
  | none =>
    refine (undoes_contribute _).bindBefore ?_
    refine (undoes_times one all small).bindBehind ?_
    exact undoes_leave.bindBefore (undoes_pure _)

theorem restores_vector (element : StreamType) {reader : Reader}
    (one : Restores registry limit element reader) :
    Restores registry limit (.vector element) (vector element reader) := by
  intro field ctx value bytes serial small
  cases serial with
  | @vector _ _ items all _ count inner framed =>
    have fits : all.size ≤ limit := by
      have inside := framed.size_le
      rw [Array.size_append] at inside
      omega
    refine undoes_container framed fun skipped => ?_
    exact (undoes_scan (Scan.undoes_unsigned count)).bind (undoes_listed one inner fits)

theorem restores_array (element : StreamType) (count : UInt64) {reader : Reader}
    (one : Restores registry limit element reader) :
    Restores registry limit (.array element count) (array element count.toNat reader) := by
  intro field ctx value bytes serial small
  cases serial with
  | array length inner =>
    unfold array
    rw [← length]
    exact undoes_listed one inner small

theorem restores_map {key value : StreamType} {keyReader valueReader : Reader}
    (keysRestored : Restores registry limit key keyReader)
    (valuesRestored : Restores registry limit value valueReader) :
    Restores registry limit (.map key value) (map keyReader valueReader) := by
  intro field ctx result bytes serial small c has
  cases serial with
  | @map _ _ _ pairs keys values _ count allKeys allValues framed =>
    have inside := framed.size_le
    rw [Array.size_append, Array.size_append] at inside
    obtain ⟨header, skipped, d, opened, standing, same, ends⟩ := opens_mapHeader framed c has
    have keysRead := @undoes_times _ _ _ _ _ none _ _ keysRestored allKeys (by omega)
    have valuesRead := @undoes_times _ _ _ _ _ none _ _ valuesRestored allValues (by omega)
    rw [List.length_map] at keysRead valuesRead
    have atKeys := standing.right
    rw [← same, Cursor.past_append, Cursor.past_append] at ends ⊢
    refine Takes.bind (a := c.pos) (d := c) rfl ?_
    refine opened.bind ?_
    refine (undoes_scan (Scan.undoes_unsigned count) d standing.left).bind ?_
    refine Takes.bind (a := ()) rfl ?_
    refine (undoes_looping keysRead _ atKeys.left).bind ?_
    refine (undoes_looping valuesRead _ atKeys.right).bind ?_
    refine Takes.bind (a := ()) rfl ?_
    refine (ends "std::map").bind ?_
    rw [← List.zip_of_prod rfl rfl]
    rfl

/-! ## classes -/

theorem serialParts_append {ctx : Context} {parts others : List Part}
    {fields : List (String × Value)} (serial : SerialParts registry ctx (parts ++ others) fields bytes) :
    ∃ inherited own front behind, SerialParts registry ctx parts inherited front ∧
      SerialParts registry ctx others own behind ∧ fields = inherited ++ own ∧
      bytes = front ++ behind := by
  induction parts generalizing fields bytes with
  | nil => exact ⟨[], fields, #[], bytes, .nil, serial, rfl, Array.empty_append.symm⟩
  | cons part parts ih =>
    cases serial with
    | cons first rest =>
      obtain ⟨inherited, own, front, behind, left, right, rfl, rfl⟩ := ih rest
      exact ⟨_, own, _, behind, .cons first left, right, (List.append_assoc _ _ _).symm,
        Array.append_assoc.symm⟩

theorem undoes_bases {reader : StreamType → Reader} {ctx : Context} {names : List String}
    {fields : List (String × Value)} (one : ∀ type, Restores registry limit type (reader type))
    (serial : SerialParts registry ctx (names.map .base) fields bytes) (small : bytes.size ≤ limit) :
    (bases (fun base => reader (.ofClass base)) ctx names).Undoes bytes fields := by
  induction names generalizing fields bytes with
  | nil =>
    cases serial
    exact undoes_pure _
  | cons base rest ih =>
    cases serial with
    | @cons _ _ _ value _ front behind first others =>
      rw [Array.size_append] at small
      have inside := one (.ofClass base) none (ctx.inBase base) value front first (by omega)
      have outside := ih others (by omega)
      refine (undoes_contribute _).bindBefore ?_
      refine inside.bind ?_
      refine undoes_leave.bindBefore ?_
      exact outside.bindBehind (undoes_pure _)

theorem undoes_members {reader : StreamType → Reader} {ctx : Context} {slots : List Member}
    {fields : List (String × Value)} (one : ∀ type, Restores registry limit type (reader type))
    (serial : SerialParts registry ctx (slots.map .member) fields bytes)
    (small : bytes.size ≤ limit) : (members reader ctx slots).Undoes bytes fields := by
  induction slots generalizing fields bytes with
  | nil =>
    cases serial
    exact undoes_pure _
  | cons own rest ih =>
    cases serial with
    | @cons _ _ _ value _ front behind first others =>
      rw [Array.size_append] at small
      have inside := one own.type (some own.name) (ctx.inMember own.name) value front first (by omega)
      have outside := ih others (by omega)
      refine inside.bind ?_
      exact outside.bindBehind (undoes_pure _)

/-- what opens an object finds the layout of its version -/
theorem takes_openObject {className : String} {ctx : Context} {layout : Layout} {size : Nat}
    (known : registry.get? className layout.version.toNat = some layout)
    (plain : layout.version.toNat.testBit 14 = false) (small : 2 + size < 2 ^ 30)
    (has : c.Has (countingHeader layout.version.toNat size)) :
    ∃ opening : Opening, opening.start = c.pos ∧ opening.layout = layout ∧
      opening.header = .ofWords (some (2 + size)) layout.version.toNat ∧
      (openObject registry className ctx).Takes c opening
        (c.past (countingHeader layout.version.toNat size)) := by
  have fits : layout.version.toNat < 256 ^ 2 := layout.version.toNat_lt
  obtain ⟨latest, newest⟩ := Registry.exists_latest? known
  let header := VersionHeader.ofWords (some (2 + size)) layout.version.toNat
  have whole : header.memberwise = false := plain
  have version : header.version = layout.version.toNat := by
    show (if layout.version.toNat.testBit 14 = true then _ else _) = _
    rw [plain]
    rfl
  have found : (registry.get? className header.version).getD latest = layout := by
    rw [version, known]
    rfl
  refine ⟨⟨c.pos, header, 6, layout, decide (layout.version ≠ latest.version)⟩, rfl, rfl, rfl, ?_⟩
  unfold openObject
  refine Takes.bind (a := false) (d := c) rfl ?_
  rw [newest]
  refine Takes.bind (a := c.pos) (d := c) rfl ?_
  refine (undoes_header small fits c has).bind ?_
  show (if header.memberwise = true then _ else
    let read := (registry.get? className header.version).getD latest
    pure ⟨c.pos, header, 6, read, decide (read.version ≠ latest.version)⟩ :
      Reading Opening).Takes _ _ _
  rw [found, whole]
  rfl

/-- an object leaves six bytes less than it takes to its parts -/
theorem restores_object {reader : StreamType → Reader}
    (one : ∀ type, Restores registry limit type (reader type)) (className : String) :
    Restores registry (limit + 6) (.named className) (fun field ctx =>
      openObject registry className ctx >>= fun opening =>
        body reader className opening field ctx) := by
  intro field outer value bytes serial small c has
  cases serial with
  | @object _ _ layout fields inner known plain short parts =>
    rw [size_counted] at small
    obtain ⟨inherited, own, front, behind, left, right, rfl, rfl⟩ := serialParts_append parts
    rw [Array.size_append] at small
    obtain ⟨opening, start, found, header, opened⟩ :=
      @takes_openObject _ _ _ outer _ _ known plain short has.left
    have standing := has.right
    have basesRead := undoes_bases one left (by omega)
    have membersRead := undoes_members one right (by omega)
    have ends := @takes_checkEnd_counted c className layout.version.toNat (front ++ behind)
    rw [← start, ← header] at ends
    refine opened.bind ?_
    unfold body
    refine Takes.bind (a := ()) rfl ?_
    rw [found]
    refine (basesRead _ standing.left).bind ?_
    refine (membersRead _ standing.right).bind ?_
    refine Takes.bind (a := ()) rfl ?_
    unfold counted at ends ⊢
    rw [Cursor.past_append, Cursor.past_append] at ends ⊢
    exact ends.bind rfl

end

/-- a type is read as it was written if that is so of all classes -/
theorem restores_streamed {registry : Registry} {limit : Nat} {readNamed : String → Reader}
    (inner : ∀ name, Restores registry limit (.named name) (readNamed name)) (type : StreamType) :
    Restores registry limit type (streamed readNamed type) := by
  induction type with
  | primitive p => exact restores_primitive p
  | text kind => exact restores_text kind
  | object => exact restores_objectHead
  | datime => exact restores_datime
  | time => exact restores_time
  | ref => exact restores_ref
  | refArray => exact restores_refArray
  | vector element ih => exact restores_vector element ih
  | array element count ih => exact restores_array element count ih
  | map key value keys values => exact restores_map keys values
  | named name => exact inner name

theorem restores_named (registry : Registry) (depth : Nat) (className : String) :
    Restores registry (2 * depth + 1) (.named className) (named registry depth className) := by
  induction depth generalizing className with
  | zero =>
    intro field ctx value bytes serial small
    cases serial with
    | object =>
      -- one byte is too little for the header of an object
      rw [size_counted] at small
      omega
  | succ depth ih =>
    intro field ctx value bytes serial small
    have inner := restores_object (restores_streamed ih) className
    exact inner field ctx value bytes serial (by omega)

end Reading

/-- a value that was written is read again, whatever stands before and behind it -/
theorem Registry.read_of_serial (registry : Registry) {type : StreamType} {ctx : Context}
    {value : Value} {bytes : Bytes} (serial : Serial registry type ctx value bytes)
    (field : Option String) (before after : Bytes) :
    (registry.read type field ctx).run
        { cursor := { data := before ++ bytes ++ after, pos := before.size } } =
      (.ok value,
        { cursor := { data := before ++ bytes ++ after, pos := before.size + bytes.size } }) := by
  have has := Cursor.has_middle before bytes after
  let c : Cursor := { data := before ++ bytes ++ after, pos := before.size }
  have enough : bytes.size ≤ 2 * (c.remaining / 2) + 1 := by
    have inside : c.pos + bytes.size ≤ c.data.size := has.inside
    unfold Cursor.remaining
    omega
  have inner := Reading.restores_named registry (c.remaining / 2)
  have restores := Reading.restores_streamed inner type
  exact restores field ctx value bytes serial enough c has

/-! ### a tree of two versions -/

/-- trees of version 1 have branches, which are trees -/
def bareTree : Layout where
  name := "Tree"
  version := 1
  bases := ["TObject"]
  members := [⟨"branches", .vector (.named "Tree")⟩]

/-- trees of version 2 have a label and numbers for it, too -/
def labelledTree : Layout where
  name := "Tree"
  version := 2
  bases := ["TObject"]
  members := [⟨"label", .text .stdString⟩, ⟨"rings", .map (.primitive .uint8) (.primitive .int16)⟩,
    ⟨"branches", .vector (.named "Tree")⟩]

def trees : Registry := .ofList [bareTree, labelledTree]

/-- a tree of version 1 without branches -/
def leaf : Value :=
  .record [("@fUniqueID", .uint 9), ("@fBits", .uint 0x1000000), ("branches", .list [])]

def leafBytes : Bytes := #[0x40, 0, 0, 22, 0, 1] ++ #[0, 1, 0, 0, 0, 9, 0, 0, 0, 0] ++
  #[0x40, 0, 0, 6, 0, 9, 0, 0, 0, 0]

/-- a tree of version 2 with that branch -/
def trunk : Value :=
  .record [("@fUniqueID", .uint 8), ("@fBits", .uint 0x1000010), ("label", .text "k"),
    ("rings", .map [(.uint 1, .int (-1)), (.uint 2, .int 7)]), ("branches", .list [leaf])]

def trunkBytes : Bytes := #[0x40, 0, 0, 80, 0, 2] ++ #[0, 1, 0, 0, 0, 8, 0, 0, 0, 0x10, 3, 4] ++
  #[0x40, 0, 0, 4, 0, 9, 1, 0x6b] ++
  #[0x40, 0, 0, 18, 0x40, 9, 0, 0, 0, 0, 0, 0, 0, 0, 0, 2, 1, 2, 0xff, 0xff, 0, 7] ++
  #[0x40, 0, 0, 32, 0, 9, 0, 0, 0, 1] ++ leafBytes

theorem serial_leaf {ctx : Context} (heads : ctx.objectHead = true) :
    Serial trees (.named "Tree") ctx leaf leafBytes := by
  have head := @WrittenHead.present ((ctx.inClass "Tree").inBase "TObject") 1 9 0 #[] #[] heads
    (by decide) rfl (by decide) (by decide) rfl
  have branches := @Serial.vector trees (.named "Tree") ((ctx.inClass "Tree").inMember "branches")
    [] #[] _ (by decide) .nil (@Framed.headed _ _ 9 rfl (by decide) rfl (by decide))
  have parts := @SerialParts.cons trees _ (.base "TObject") _ _ _ _ _ (.head head)
    (@SerialParts.cons trees _ (.member ⟨"branches", _⟩) _ _ _ _ _ branches .nil)
  have tree := @Serial.object trees "Tree" ctx bareTree _ _ (by decide) (by decide) (by decide) parts
  exact cast (congrArg (Serial trees (.named "Tree") ctx leaf) (by decide)) tree

theorem serial_trunk {ctx : Context} (heads : ctx.objectHead = true) :
    Serial trees (.named "Tree") ctx trunk trunkBytes := by
  have head := @WrittenHead.present ((ctx.inClass "Tree").inBase "TObject") 1 8 0x10 #[] #[3, 4]
    heads (by decide) rfl (by decide) (by decide) rfl
  have label := @Serial.stdString trees ((ctx.inClass "Tree").inMember "label") "k" _ _
    (.short (by decide)) (@Framed.headed _ _ 9 rfl (by decide) rfl (by decide))
  have uint8 {ctx : Context} (n : Nat) (small : n < 256 ^ 1) :
      Serial trees (.primitive .uint8) ctx (.uint n) (Bytes.bigOf 1 n) := .number (.unsigned rfl small)
  have int16 {ctx : Context} (n : Int) (fits : Bytes.Signed 2 n) :
      Serial trees (.primitive .int16) ctx (.int n) (Bytes.signedOf 2 n) := .number (.signed rfl fits)
  have rings := @Serial.map trees (.primitive .uint8) (.primitive .int16)
    ((ctx.inClass "Tree").inMember "rings") [(.uint 1, .int (-1)), (.uint 2, .int 7)] _ _ _
    (by decide) (.cons (uint8 1 (by decide)) (.cons (uint8 2 (by decide)) .nil))
    (.cons (int16 (-1) (by decide)) (.cons (int16 7 (by decide)) .nil))
    (@FramedMap.headed _ _ 0x4009 #[0, 0, 0, 0, 0, 0] rfl (by decide) rfl rfl (by decide))
  have branch := @serial_leaf ((ctx.inClass "Tree").inMember "branches").items heads
  have branches := @Serial.vector trees (.named "Tree") ((ctx.inClass "Tree").inMember "branches")
    [leaf] _ _ (by decide) (.cons branch .nil) (@Framed.headed _ _ 9 rfl (by decide) rfl (by decide))
  have parts := @SerialParts.cons trees _ (.base "TObject") _ _ _ _ _ (.head head)
    (@SerialParts.cons trees _ (.member ⟨"label", _⟩) _ _ _ _ _ label
      (@SerialParts.cons trees _ (.member ⟨"rings", _⟩) _ _ _ _ _ rings
        (@SerialParts.cons trees _ (.member ⟨"branches", _⟩) _ _ _ _ _ branches .nil)))
  have tree := @Serial.object trees "Tree" ctx labelledTree _ _ (by decide +kernel)
    (by decide +kernel) (by decide +kernel) parts
  exact cast (congrArg (Serial trees (.named "Tree") ctx trunk) (by decide +kernel)) tree

theorem read_of_serial_trunk :
    Serial trees (.named "Tree") (.ofOptions {}) trunk trunkBytes ∧
      (trees.read (.named "Tree") none (.ofOptions {})).run
          { cursor := { data := #[1] ++ trunkBytes ++ #[2, 3], pos := 1 } } =
        (.ok trunk, { cursor := { data := #[1] ++ trunkBytes ++ #[2, 3], pos := 85 } }) :=
  ⟨serial_trunk rfl, trees.read_of_serial (serial_trunk rfl) none #[1] #[2, 3]⟩

end Baskets
