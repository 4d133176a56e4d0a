import Baskets.Proofs.Bytes
import Baskets.Proofs.Discovery
import Baskets.Proofs.Reading.Bookkeeping
import Baskets.Proofs.Scan.Surroundings

/-!
# Reading does not depend on where the bytes lie

A read that succeeds on some bytes alone gives the same value when other bytes stand in front of
them and behind them, stops at the same place among them, and leaves the same generator.  The
positions that a reader remembers, to check where an object ends, are all shifted alike, so two
readings are set beside each other as two scans are (`Reading.Moves`).

Objects may be nested as deeply as there are bytes left for, and with other bytes behind there are
more.  A read that succeeds has never come to the last level, so more levels change nothing
(`Reading.follows_named`).
-/

namespace Baskets

/-- how far a reading has come -/
def Surroundings.reached (around : Surroundings) (pos : Nat) (generator : Option Generator) :
    Progress :=
  { cursor := around.inner pos, generator }

/-- the same with the others around -/
def Surroundings.moved (around : Surroundings) (pos : Nat) (generator : Option Generator) :
    Progress :=
  { cursor := around.outer pos, generator }

namespace Reading

variable {around : Surroundings} {α β α' β' : Type}

/-- what the one reading gives in the bytes alone, the other gives moved with the others around, and
the generators are the same -/
def Moves (around : Surroundings) (move : α → α') (r : Reading α) (r' : Reading α') : Prop :=
  ∀ pos g a q, r.run (around.reached pos g) = (.ok a, q) → ∃ stop h, q = around.reached stop h ∧
    r'.run (around.moved pos g) = (.ok (move a), around.moved stop h)

/-- gives the same with any bytes around -/
def Stays (r : Reading α) : Prop := ∀ around, Moves around id r r

/-! ## sequences -/

namespace Moves

variable {move : α → α'} {move' : β → β'}

theorem pure (a : α) : Moves around move (Pure.pure a) (Pure.pure (move a)) := by
  intro pos g b q ran
  cases ran
  exact ⟨pos, g, rfl, rfl⟩

theorem throw {fault : Fault} {r : Reading α'} :
    Moves around move (MonadExcept.throw fault : Reading α) r :=
  fun _ _ _ _ ran => nomatch ran

theorem throw_bind {fault : Fault} {f : β → Reading α} {r : Reading α'} :
    Moves around move ((MonadExcept.throw fault : Reading β) >>= f) r :=
  fun _ _ _ _ ran => nomatch ran

theorem bind {r : Reading α} {r' : Reading α'} {f : α → Reading β} {f' : α' → Reading β'}
    (first : Moves around move r r') (rest : ∀ a, Moves around move' (f a) (f' (move a))) :
    Moves around move' (r >>= f) (r' >>= f') := by
  intro pos g b q ran
  obtain ⟨a, m, ran, ran'⟩ := run_bind_ok ran
  obtain ⟨stop, h, rfl, moved⟩ := first pos g a m ran
  simpa [moved] using rest a stop h b q ran'

theorem scan {s : Scan α} {s' : Scan α'} (moves : Scan.Moves around move s s') :
    Moves around move (Reading.scan s) (Reading.scan s') := by
  intro pos g a q ran
  rw [run_scan] at ran
  cases scanned : s.run (around.reached pos g).cursor with
  | mk result d =>
    rw [scanned] at ran
    cases ran
    obtain ⟨stop, rfl, moved⟩ := moves pos a d scanned
    have moved : s'.run (around.moved pos g).cursor = _ := moved
    refine ⟨stop, g, rfl, ?_⟩
    rw [run_scan, moved]
    rfl

theorem pos : Moves around around.shift (Reading.scan Scan.pos) (Reading.scan Scan.pos) := scan .pos

end Moves

namespace Stays

theorem pure (a : α) : Stays (Pure.pure a : Reading α) := fun _ => .pure a

theorem throw (fault : Fault) : Stays (MonadExcept.throw fault : Reading α) := fun _ => .throw

theorem bind {r : Reading α} {f : α → Reading β} (first : Stays r) (rest : ∀ a, Stays (f a)) :
    Stays (r >>= f) :=
  fun around => (first around).bind fun a => rest a around

/-- what comes behind may move -/
theorem before {move : β → β'} {r : Reading α} {f : α → Reading β} {f' : α → Reading β'}
    (first : Stays r) (rest : ∀ a, Moves around move (f a) (f' a)) :
    Moves around move (r >>= f) (r >>= f') :=
  (first around).bind rest

theorem scan {s : Scan α} (stays : Scan.Stays s) : Stays (Reading.scan s) :=
  fun around => .scan (stays around)

theorem measured {s : Scan α} (stays : Scan.Stays s) : Stays (Reading.measured s) :=
  scan stays.measured

theorem generating : Stays Reading.generating := by
  intro around pos g a q ran
  cases ran
  exact ⟨pos, g, rfl, rfl⟩

theorem contribute (f : Generator → Generator) : Stays (Reading.contribute f) := by
  intro around pos g a q ran
  cases ran
  exact ⟨pos, g.map f, rfl, rfl⟩

theorem add (info : NodeInfo) : Stays (Reading.add info) := contribute _

theorem leave : Stays Reading.leave := by
  intro around pos g a q ran
  unfold Surroundings.reached at ran
  unfold Surroundings.moved
  cases g with
  | none =>
    rw [run_leave_none] at ran ⊢
    cases ran
    exact ⟨pos, none, rfl, rfl⟩
  | some g =>
    rw [run_leave_some] at ran ⊢
    cases popped : g.pop with
    | error fault =>
      rw [popped] at ran
      cases ran
    | ok left =>
      rw [popped] at ran
      cases ran
      exact ⟨pos, some left, rfl, rfl⟩

theorem memberwise (what : String) : Stays (Reading.memberwise what : Reading α) := by
  refine .bind .generating fun generating => ?_
  split
  · exact .throw _
  · exact .throw _

end Stays

namespace Moves

theorem times {r r' : Reading α} (one : Moves around id r r') (count : Nat) :
    Moves around id (Reading.times count r) (Reading.times count r') := by
  induction count with
  | zero => exact .pure []
  | succ count ih => exact one.bind fun _ => ih.bind fun _ => .pure _

theorem looping (slot : Nat) (start : Instruction) {r r' : Reading α} (inner : Moves around id r r') :
    Moves around id (Reading.looping slot start r) (Reading.looping slot start r') := by
  intro pos g a q ran
  unfold Reading.looping at ran ⊢
  rw [run_bind, run_get] at ran ⊢
  cases g with
  | none => exact Moves.bind inner (fun _ => .pure _) pos none a q ran
  | some g =>
    refine Moves.bind inner (fun result => ?_) pos (some g) a q ran
    show Moves around id (if (g.children g.active).length = slot then _ else _)
      (if (g.children g.active).length = slot then _ else _)
    by_cases first : (g.children g.active).length = slot
    · rw [if_pos first, if_pos first]
      exact Stays.before (.contribute _) fun _ => .pure _
    · rw [if_neg first, if_neg first]
      exact .pure _

end Moves

/-! ## headers -/

theorem stays_containerHeader (what : String) (ctx : Context) :
    Stays (containerHeader what ctx) := by
  unfold containerHeader
  split
  · exact .pure _
  · refine .bind (.measured .versionHeader) fun (header, skipped) => ?_
    dsimp only
    split
    · exact .bind (.memberwise what) fun _ => .pure _
    · exact .pure _

/-- an object ends where its header says, wherever it began -/
theorem moves_checkEnd (what : String) (start : Nat) (header : Option VersionHeader) :
    Moves around id (checkEnd what start header) (checkEnd what (around.shift start) header) := by
  unfold checkEnd
  cases header.bind (·.byteCount) with
  | none => exact .pure _
  | some count =>
    refine Moves.bind .pos fun actual => ?_
    dsimp only
    rw [← around.shift_add, ← around.shift_add]
    by_cases same : actual = start + 4 + count
    · rw [if_neg fun other => other same, if_neg fun other => other (congrArg around.shift same)]
      exact .pure _
    · rw [if_pos same]
      exact .throw

theorem moves_container (what : String) (ctx : Context) {body body' : Nat → Reading α}
    (inner : ∀ skipped, Moves around id (body skipped) (body' skipped)) :
    Moves around id (container what ctx body) (container what ctx body') :=
  Moves.bind .pos fun start => (stays_containerHeader what ctx).before fun (_, skipped) =>
    (inner skipped).bind fun _ => (moves_checkEnd what start _).bind fun _ => .pure _

theorem stays_container (what : String) (ctx : Context) {body : Nat → Reading α}
    (inner : ∀ skipped, Stays (body skipped)) : Stays (container what ctx body) :=
  fun around => moves_container what ctx fun skipped => inner skipped around

/-! ## types of a fixed layout -/

theorem stays_primitive (p : Primitive) (field : Option String) (ctx : Context) :
    Stays (primitive p field ctx) :=
  .bind (.add _) fun _ => .scan (.primitive p)

theorem stays_text (kind : TextKind) (field : Option String) (ctx : Context) :
    Stays (text kind field ctx) := by
  have body (skipped : Nat) : Stays (do
      add (Contribution.text skipped field ctx)
      return Value.text (← scan Scan.string)) :=
    .bind (.add _) fun _ => .bind (.scan .string) fun _ => .pure _
  cases kind with
  | tstring => exact body 0
  | stdString =>
    have whole := stays_container "std::string" ctx body
    exact whole

theorem stays_objectHead (field : Option String) (ctx : Context) :
    Stays (objectHead field ctx) := by
  have head : Scan.Stays (if ctx.objectHead then Scan.objectHead else pure (0, 0)) := by
    split
    · exact .objectHead
    · exact .pure _
  exact .bind (.measured head) fun _ => .bind (.contribute _) fun _ => .bind (.add _) fun _ =>
    .bind .leave fun _ => .pure _

theorem stays_datime (field : Option String) (ctx : Context) : Stays (datime field ctx) :=
  .bind (.add _) fun _ => .bind (.scan (.unsigned 4)) fun _ => .pure _

theorem stays_time (field : Option String) (ctx : Context) : Stays (time field ctx) :=
  stays_container "TTime" ctx fun _ =>
    .bind (.add _) fun _ => .bind (.scan (.signed 8)) fun _ => .pure _

theorem stays_ref (field : Option String) (ctx : Context) : Stays (ref field ctx) :=
  .bind (.add _) fun _ => .bind (.scan (.skip 2)) fun _ => .bind (.scan (.unsigned 4)) fun _ =>
    .bind (.scan (.skip 6)) fun _ => .pure _

theorem stays_refArray (field : Option String) (ctx : Context) : Stays (refArray field ctx) := by
  refine stays_container "TRefArray" ctx fun skipped => ?_
  refine .bind (.add _) fun _ => .bind (.scan (.skip 10)) fun _ =>
    .bind (.scan .string) fun name => .bind (.scan (.signed 4)) fun size =>
    .bind (.scan (.skip 6)) fun _ => ?_
  have one : Stays (do return Value.int (← scan (Scan.signed 4))) :=
    .bind (.scan (.signed 4)) fun _ => .pure _
  have references : Stays (do
      let refs ← times size.toNat do return Value.int (← scan (Scan.signed 4))
      return Value.record [("fName", .text name), ("fSize", .int size), ("refs", .list refs)]) :=
    fun around => ((one around).times _).bind fun _ => .pure _
  dsimp only
  split
  · exact .bind (.throw _) fun _ => references
  · exact references

/-! ## types of other types -/

/-- the one reader gives what the other gives, moved, for every field and context -/
def Follows (around : Surroundings) (reader reader' : Reader) : Prop :=
  ∀ field ctx, Moves around id (reader field ctx) (reader' field ctx)

theorem moves_elements (type : StreamType) (count : Nat) {r r' : Reading Value}
    (one : Moves around id r r') :
    Moves around id (elements type count r) (elements type count r') := by
  unfold elements
  split
  · rename_i p _
    exact (Stays.scan (.primitive p) around).times count
  · exact one.times count

theorem stays_addList (type : StreamType) (count : Nat) (info : NodeInfo) :
    Stays (addList type count info) := by
  unfold addList
  split
  · exact .add _
  · exact .contribute _

theorem stays_leaveList (type : StreamType) : Stays (leaveList type) := by
  unfold leaveList
  split
  · exact .leave
  · exact .pure _

theorem follows_vector (element : StreamType) {reader reader' : Reader}
    (inner : Follows around reader reader') :
    Follows around (vector element reader) (vector element reader') := fun _ ctx =>
  moves_container "std::vector" ctx fun _ =>
    Stays.before (.scan (.unsigned 4)) fun _ =>
    (stays_addList element _ _).before fun _ =>
    (moves_elements element _ (inner none ctx.items)).bind fun _ =>
    (stays_leaveList element).before fun _ => .pure _

theorem follows_array (element : StreamType) (count : Nat) {reader reader' : Reader}
    (inner : Follows around reader reader') :
    Follows around (array element count reader) (array element count reader') := fun field ctx =>
  (stays_addList element _ _).before fun _ =>
    (moves_elements element _ (inner field ctx.elements)).bind fun _ =>
    (stays_leaveList element).before fun _ => .pure _

theorem stays_mapHeader (ctx : Context) : Stays (mapHeader ctx) := by
  unfold mapHeader
  split
  · exact .pure _
  · refine .bind (.measured .versionHeader) fun (header, skipped) => ?_
    dsimp only
    split
    · exact .bind (.throw _) fun _ => .bind (.scan (.skip 6)) fun _ => .pure _
    · exact .bind (.scan (.skip 6)) fun _ => .pure _

theorem follows_map {keys keys' values values' : Reader} (keys_ : Follows around keys keys')
    (values_ : Follows around values values') :
    Follows around (map keys values) (map keys' values') := fun _ ctx =>
  Moves.bind .pos fun start => (stays_mapHeader ctx).before fun (_, _) =>
    Stays.before (.scan (.unsigned 4)) fun _ =>
    Stays.before (.contribute _) fun _ =>
    Moves.bind (.looping 0 _ ((keys_ none ctx.mapKeys).times _)) fun _ =>
    Moves.bind (.looping 1 _ ((values_ none ctx.mapValues).times _)) fun _ =>
    Stays.before .leave fun _ => (moves_checkEnd "std::map" start _).bind fun _ => .pure _

/-! ## classes -/

/-- what the header of an object says, with the place of the object shifted -/
def Opening.shift (around : Surroundings) (opening : Opening) : Opening :=
  { opening with start := around.shift opening.start }

theorem moves_openObject (registry : Registry) (className : String) (ctx : Context) :
    Moves around (Opening.shift around) (openObject registry className ctx)
      (openObject registry className ctx) := by
  unfold openObject
  refine Stays.before .generating fun generating => ?_
  by_cases inside : (generating && ctx.breadcrumbs.contains className) = true
  · rw [if_pos inside]
    exact .throw_bind
  rw [if_neg inside]
  dsimp only
  cases registry.latest? className with
  | none => exact .throw
  | some latest =>
    refine Moves.bind .pos fun start => ?_
    refine Stays.before (.measured .versionHeader) fun (header, skipped) => ?_
    dsimp only
    by_cases columns : header.memberwise = true
    · rw [if_pos columns, if_pos columns]
      exact Stays.before (.memberwise className) fun _ => .pure _
    · rw [if_neg columns, if_neg columns]
      exact .pure _

theorem moves_bases {readBase readBase' : String → Reader}
    (inner : ∀ base, Follows around (readBase base) (readBase' base)) (ctx : Context)
    (names : List String) :
    Moves around id (bases readBase ctx names) (bases readBase' ctx names) := by
  induction names with
  | nil => exact .pure []
  | cons base rest ih =>
    exact Stays.before (.contribute _) fun _ =>
      (inner base none (ctx.inBase base)).bind fun _ => Stays.before .leave fun _ =>
      ih.bind fun _ => .pure _

theorem moves_members {readMember readMember' : StreamType → Reader}
    (inner : ∀ type, Follows around (readMember type) (readMember' type)) (ctx : Context)
    (slots : List Member) :
    Moves around id (members readMember ctx slots) (members readMember' ctx slots) := by
  induction slots with
  | nil => exact .pure []
  | cons member rest ih =>
    exact (inner member.type _ _).bind fun _ => ih.bind fun _ => .pure _

theorem follows_body {reader reader' : StreamType → Reader}
    (inner : ∀ type, Follows around (reader type) (reader' type)) (className : String)
    (opening : Opening) :
    Follows around (body reader className opening)
      (body reader' className (opening.shift around)) := fun _ _ =>
  Stays.before (.contribute _) fun _ =>
    (moves_bases (fun base => inner (.ofClass base)) _ _).bind fun _ =>
    (moves_members inner _ _).bind fun _ => Stays.before .leave fun _ =>
    (moves_checkEnd className opening.start _).bind fun _ => .pure _

/-! ## all types -/

theorem follows_streamed {readNamed readNamed' : String → Reader}
    (inner : ∀ name, Follows around (readNamed name) (readNamed' name)) (type : StreamType) :
    Follows around (streamed readNamed type) (streamed readNamed' type) := by
  induction type with
  | primitive p => exact fun field ctx => stays_primitive p field ctx around
  | text kind => exact fun field ctx => stays_text kind field ctx around
  | object => exact fun field ctx => stays_objectHead field ctx around
  | datime => exact fun field ctx => stays_datime field ctx around
  | time => exact fun field ctx => stays_time field ctx around
  | ref => exact fun field ctx => stays_ref field ctx around
  | refArray => exact fun field ctx => stays_refArray field ctx around
  | vector element ih => exact follows_vector element ih
  | array element count ih => exact follows_array element count.toNat ih
  | map key value keys values => exact follows_map keys values
  | named name => exact inner name

/-- more levels change nothing -/
theorem follows_named (registry : Registry) {depth depth' : Nat} (deeper : depth ≤ depth')
    (className : String) :
    Follows around (named registry depth className) (named registry depth' className) := by
  induction depth generalizing depth' className with
  | zero =>
    intro field ctx pos g value q ran
    -- the last level fails
    obtain ⟨opening, m, -, ran⟩ := run_bind_ok ran
    cases ran
  | succ depth ih =>
    intro field ctx
    obtain ⟨more, rfl⟩ : ∃ more, depth' = more + 1 := ⟨depth' - 1, by omega⟩
    exact (moves_openObject registry className ctx).bind fun opening =>
      follows_body (follows_streamed fun name => ih (Nat.le_of_succ_le_succ deeper) name) className
        opening field ctx

end Reading

/-- an entry stands in the data of its basket, behind as many bytes as its first bound says -/
theorem Basket.exists_of_entry? {basket : Basket} {i : Nat} {entry : Bytes}
    (found : basket.entry? i = some entry) :
    ∃ before after, basket.data = some (before ++ entry ++ after) ∧
      (basket.offsets.bind fun offsets => offsets[i]?) = some before.size := by
  unfold Basket.entry? at found
  obtain ⟨offsets, offsets_, found⟩ := Option.bind_eq_some_iff.1 found
  obtain ⟨start, start_, found⟩ := Option.bind_eq_some_iff.1 found
  obtain ⟨stop, -, found⟩ := Option.bind_eq_some_iff.1 found
  obtain ⟨data, data_, found⟩ := Option.bind_eq_some_iff.1 found
  unfold Basket.slice? at found
  split at found
  · rename_i inside
    cases found
    refine ⟨data.extract 0 start, data.extract stop data.size, ?_, ?_⟩
    · rw [← Bytes.extract_split data (Nat.zero_le start) inside.1,
        ← Bytes.extract_split data (Nat.zero_le stop) inside.2, Array.extract_size, data_]
    · rw [Array.size_extract_of_le (inside.1.trans inside.2), offsets_]
      exact start_
  · cases found

namespace Registry

theorem read_around {registry : Registry} {type : StreamType} {field : Option String}
    {ctx : Context} {generator : Option Generator} {bytes : Bytes} {value : Value}
    {progress : Progress}
    (ran : (registry.read type field ctx).run { cursor := { data := bytes }, generator } =
      (.ok value, progress)) (before after : Bytes) :
    progress.cursor.data = bytes ∧
    (registry.read type field ctx).run
        { cursor := { data := before ++ bytes ++ after, pos := before.size }, generator } =
      (.ok value, { progress with
        cursor := { data := before ++ bytes ++ after,
                    pos := before.size + progress.cursor.pos } }) := by
  let around : Surroundings := { before, bytes, after }
  have deeper : (around.inner 0).remaining / 2 ≤ (around.outer 0).remaining / 2 := by
    unfold Cursor.remaining
    show (bytes.size - 0) / 2 ≤ ((before ++ bytes ++ after).size - (before.size + 0)) / 2
    rw [Array.size_append, Array.size_append]
    omega
  obtain ⟨stop, h, rfl, moved⟩ := @Reading.follows_streamed around _ _
    (Reading.follows_named registry deeper) type field ctx 0 generator value progress ran
  exact ⟨rfl, moved⟩

/-- **Reading does not depend on where the bytes lie.**  What is read from some bytes alone, with any
generator or none, is read from them with any others around: the same value, up to the same place,
and with the same generator afterwards.  So an entry that is cut out of a basket is read as it is
read where it stands. -/
theorem read_anywhere (registry : Registry) (type : StreamType) (field : Option String)
    (ctx : Context) (generator : Option Generator) :
    (∀ before bytes after value progress,
      (registry.read type field ctx).run { cursor := { data := bytes }, generator } =
        (.ok value, progress) →
      progress.cursor.data = bytes ∧
      (registry.read type field ctx).run
          { cursor := { data := before ++ bytes ++ after, pos := before.size }, generator } =
        (.ok value, { progress with
          cursor := { data := before ++ bytes ++ after,
                      pos := before.size + progress.cursor.pos } })) ∧
    ∀ basket i entry value progress, Basket.entry? basket i = some entry →
      (registry.read type field ctx).run { cursor := { data := entry }, generator } =
        (.ok value, progress) →
      ∃ data start, basket.data = some data ∧
        (basket.offsets.bind fun offsets => offsets[i]?) = some start ∧
        (registry.read type field ctx).run { cursor := { data, pos := start }, generator } =
          (.ok value, { progress with
            cursor := { data, pos := start + progress.cursor.pos } }) := by
  refine ⟨fun before bytes after value progress ran => read_around ran before after,
    fun basket i entry value progress found ran => ?_⟩
  obtain ⟨before, after, data, start⟩ := Basket.exists_of_entry? found
  exact ⟨_, _, data, start, (read_around ran before after).2⟩

/-- a list of a track between other bytes -/
theorem read_anywhere_track : ∃ value g,
    let reading := tracks.read (.vector (.named "Track")) none (.ofOptions {})
    reading.run { cursor := { data := newTrack }, generator := some {} } =
      (.ok value, { cursor := { data := newTrack, pos := 50 }, generator := some g }) ∧
    reading.run { cursor := { data := #[1, 2, 3] ++ newTrack ++ #[4], pos := 3 },
                  generator := some {} } =
      (.ok value, { cursor := { data := #[1, 2, 3] ++ newTrack ++ #[4], pos := 3 + 50 },
                    generator := some g }) := by
  let interpretation : Interpretation := { type := .vector (.named "Track"), registry := tracks }
  obtain ⟨value, cursor, g, read⟩ := @Interpretation.exists_of_isOk interpretation newTrack {}
    (by decide +kernel)
  have stop : (interpretation.read newTrack (some {})).2.cursor = { data := newTrack, pos := 50 } := by
    decide +kernel
  rw [read] at stop
  obtain rfl : cursor = { data := newTrack, pos := 50 } := stop
  have anywhere := tracks.read_anywhere (.vector (.named "Track")) none (.ofOptions {}) (some {})
  exact ⟨value, g, read, (anywhere.1 #[1, 2, 3] newTrack #[4] value _ read).2⟩

end Registry

end Baskets
