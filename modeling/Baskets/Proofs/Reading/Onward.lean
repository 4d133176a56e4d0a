import Baskets.Proofs.Machine.Scans

/-!
# Readings go on in their bytes

A reading that succeeds has gone on in the same bytes, over some that remained, or has stayed where
it was (`Cursor.Onward`).  So all that two readings ask of others, they ask at places onward from
where they began, and when these others do the same there, the two do the same (`Reading.Agree`).
-/

namespace Baskets

namespace Cursor

variable {c d e : Cursor}

/-- the cursor is where it was, or went on over bytes that remained -/
structure Onward (c d : Cursor) : Prop where
  data : d.data = c.data
  pos : c.pos ≤ d.pos
  taken : d.remaining + (d.pos - c.pos) = c.remaining

theorem Onward.refl (c : Cursor) : c.Onward c where
  data := rfl
  pos := Nat.le_refl _
  taken := by rw [Nat.sub_self, Nat.add_zero]

theorem Onward.trans (first : c.Onward d) (second : d.Onward e) : c.Onward e where
  data := second.data.trans first.data
  pos := Nat.le_trans first.pos second.pos
  taken := by
    have := first.taken
    have := second.taken
    have := first.pos
    have := second.pos
    omega

theorem Onward.remaining_le (onward : c.Onward d) : d.remaining ≤ c.remaining :=
  onward.taken ▸ Nat.le_add_right _ _

end Cursor

theorem Scan.Forward.onward {c d : Cursor} (forward : Scan.Forward c d) : c.Onward d := by
  obtain ⟨data, pos, size⟩ := forward
  refine ⟨data, pos, ?_⟩
  unfold Cursor.remaining
  rw [← data]
  omega

namespace Scan

variable {α β : Type} {c d : Cursor}

/-- wherever it begins, a success is onward from there -/
def Goes (s : Scan α) : Prop := ∀ c a d, s.Takes c a d → c.Onward d

namespace Goes

theorem pure (a : α) : Goes (Pure.pure a) := by
  intro c b d takes
  obtain ⟨-, rfl⟩ := takes_pure takes
  exact .refl d

theorem bind {s : Scan α} {f : α → Scan β} (first : Goes s) (rest : ∀ a, Goes (f a)) :
    Goes (s >>= f) := by
  intro c b d takes
  obtain ⟨a, e, one, other⟩ := takes_bind takes
  exact (first c a e one).trans (rest a e b d other)

theorem pos : Goes Scan.pos := by
  intro c a d takes
  cases takes
  exact .refl c

theorem take (n : Nat) : Goes (Scan.take n) := fun _ _ _ takes => (forward_take takes).onward

theorem skip (n : Nat) : Goes (Scan.skip n) := fun _ _ _ takes => (forward_skip takes).onward

theorem unsigned (width : Nat) : Goes (Scan.unsigned width) := .bind (.take width) fun _ => .pure _

theorem signed (width : Nat) : Goes (Scan.signed width) := .bind (.take width) fun _ => .pure _

theorem string : Goes Scan.string := by
  have characters (length : Nat) : Goes (do return Text.lossy (← Scan.take length)) :=
    .bind (.take length) fun _ => .pure _
  refine .bind (.unsigned 1) fun short => ?_
  dsimp only
  split
  · exact .bind (.unsigned 4) characters
  · exact .bind (.pure short) characters

theorem versionHeader : Goes Scan.versionHeader :=
  fun _ _ _ takes => (forward_versionHeader takes).onward

theorem objectHead : Goes Scan.objectHead := fun _ _ _ takes => (forward_objectHead takes).onward

theorem primitive (p : Primitive) : Goes p.scan := by
  cases p with
  | bool => exact .bind (.bind (.unsigned 1) fun _ => .pure _) fun _ => .pure _
  | int8 | int16 | int32 | int64 => exact .bind (.signed _) fun _ => .pure _
  | uint8 | uint16 | uint32 | uint64 | float32 | float64 =>
    exact .bind (.unsigned _) fun _ => .pure _

theorem measured {s : Scan α} (goes : Goes s) : Goes (do
    let start ← Scan.pos
    let a ← s
    return (a, (← Scan.pos) - start)) :=
  .bind .pos fun _ => .bind goes fun _ => .bind .pos fun _ => .pure _

end Goes

end Scan

namespace Reading

variable {α β : Type} {c : Cursor}

/-- wherever it begins onward from `c`, both readings do the same, and a success is onward from
there -/
def Agree (c : Cursor) (r s : Reading α) : Prop :=
  ∀ p : Progress, c.Onward p.cursor →
    s.run p = r.run p ∧ ∀ a q, r.run p = (.ok a, q) → p.cursor.Onward q.cursor

/-! ## sequences -/

namespace Agree

/-- a reading agrees with itself if its successes are onward -/
theorem self {r : Reading α} (onward : ∀ p a q, r.run p = (.ok a, q) → p.cursor.Onward q.cursor) :
    Agree c r r :=
  fun p _ => ⟨rfl, onward p⟩

theorem pure (a : α) : Agree c (Pure.pure a) (Pure.pure a) := .self fun p b q ran => by
  cases ran
  exact .refl _

theorem throw (fault : Fault) :
    Agree c (MonadExcept.throw fault : Reading α) (MonadExcept.throw fault) :=
  .self fun _ _ _ ran => nomatch ran

theorem bind {r s : Reading α} {f g : α → Reading β} (first : Agree c r s)
    (rest : ∀ a, Agree c (f a) (g a)) : Agree c (r >>= f) (s >>= g) := by
  intro p onward
  obtain ⟨same, goes⟩ := first p onward
  constructor
  · simpa [same] using carry_congr fun a q ran => (rest a q (onward.trans (goes a q ran))).1
  · intro b q ran
    obtain ⟨a, m, one, other⟩ := run_bind_ok ran
    have there := goes a m one
    exact there.trans ((rest a m (onward.trans there)).2 b q other)

theorem scan {s : Scan α} (goes : Scan.Goes s) : Agree c (Reading.scan s) (Reading.scan s) := by
  refine .self fun p a q ran => ?_
  obtain ⟨takes, -⟩ := scan_ok ran
  exact goes _ _ _ takes

theorem measured {s : Scan α} (goes : Scan.Goes s) :
    Agree c (Reading.measured s) (Reading.measured s) := scan goes.measured

theorem generating : Agree c Reading.generating Reading.generating := .self fun p a q ran => by
  cases ran
  exact .refl _

theorem contribute (f : Generator → Generator) :
    Agree c (Reading.contribute f) (Reading.contribute f) := .self fun p a q ran => by
  cases ran
  exact .refl _

theorem add (info : NodeInfo) : Agree c (Reading.add info) (Reading.add info) := contribute _

theorem leave : Agree c Reading.leave Reading.leave := .self fun p a q ran => by
  obtain ⟨same, -⟩ := leave_ok ran
  rw [same]
  exact .refl _

theorem memberwise (what : String) :
    Agree c (Reading.memberwise what : Reading α) (Reading.memberwise what) := by
  refine .bind .generating fun generating => ?_
  split
  · exact .throw _
  · exact .throw _

theorem times {r s : Reading α} (one : Agree c r s) (count : Nat) :
    Agree c (Reading.times count r) (Reading.times count s) := by
  induction count with
  | zero => exact .pure []
  | succ count ih => exact .bind one fun _ => .bind ih fun _ => .pure _

theorem looping (slot : Nat) (start : Instruction) {r s : Reading α} (inner : Agree c r s) :
    Agree c (Reading.looping slot start r) (Reading.looping slot start s) := by
  have get : Agree c (get : Reading Progress) get := .self fun p a q ran => by
    cases ran
    exact .refl _
  refine .bind get fun p => .bind inner fun result => ?_
  dsimp only
  split
  · split
    · exact .bind (.contribute _) fun _ => .pure _
    · exact .pure _
  · exact .pure _

/-! ## headers -/

theorem containerHeader (what : String) (ctx : Context) :
    Agree c (Reading.containerHeader what ctx) (Reading.containerHeader what ctx) := by
  unfold Reading.containerHeader
  split
  · exact .pure _
  · refine .bind (.measured .versionHeader) fun (header, skipped) => ?_
    dsimp only
    split
    · exact .bind (.memberwise what) fun _ => .pure _
    · exact .pure _

theorem checkEnd (what : String) (start : Nat) (header : Option VersionHeader) :
    Agree c (Reading.checkEnd what start header) (Reading.checkEnd what start header) := by
  unfold Reading.checkEnd
  split
  · exact .pure _
  · refine .bind (.scan .pos) fun actual => ?_
    dsimp only
    split
    · exact .throw _
    · exact .pure _

theorem container (what : String) (ctx : Context) {f g : Nat → Reading α}
    (inner : ∀ skipped, Agree c (f skipped) (g skipped)) :
    Agree c (Reading.container what ctx f) (Reading.container what ctx g) :=
  .bind (.scan .pos) fun _ => .bind (.containerHeader what ctx) fun (_, skipped) =>
    .bind (inner skipped) fun _ => .bind (.checkEnd what _ _) fun _ => .pure _

end Agree

/-! ## types of a fixed layout -/

/-- the successes of the reading are onward from where it began -/
def Goes (r : Reading α) : Prop := ∀ c, Agree c r r

theorem goes_primitive (p : Primitive) (field : Option String) (ctx : Context) :
    Goes (primitive p field ctx) :=
  fun _ => .bind (.add _) fun _ => .scan (.primitive p)

theorem goes_text (kind : TextKind) (field : Option String) (ctx : Context) :
    Goes (text kind field ctx) := by
  have body (skipped : Nat) : Goes (do
      add (Contribution.text skipped field ctx)
      return Value.text (← scan Scan.string)) :=
    fun _ => .bind (.add _) fun _ => .bind (.scan .string) fun _ => .pure _
  cases kind with
  | tstring => exact body 0
  | stdString =>
    have whole (c : Cursor) := Agree.container "std::string" ctx fun skipped => body skipped c
    exact whole

theorem goes_objectHead (field : Option String) (ctx : Context) : Goes (objectHead field ctx) := by
  have head : Scan.Goes (if ctx.objectHead then Scan.objectHead else pure (0, 0)) := by
    split
    · exact .objectHead
    · exact .pure _
  exact fun _ => .bind (.measured head) fun _ => .bind (.contribute _) fun _ =>
    .bind (.add _) fun _ => .bind .leave fun _ => .pure _

theorem goes_datime (field : Option String) (ctx : Context) : Goes (datime field ctx) :=
  fun _ => .bind (.add _) fun _ => .bind (.scan (.unsigned 4)) fun _ => .pure _

theorem goes_time (field : Option String) (ctx : Context) : Goes (time field ctx) :=
  fun _ => .container "TTime" ctx fun _ =>
    .bind (.add _) fun _ => .bind (.scan (.signed 8)) fun _ => .pure _

theorem goes_ref (field : Option String) (ctx : Context) : Goes (ref field ctx) :=
  fun _ => .bind (.add _) fun _ => .bind (.scan (.skip 2)) fun _ =>
    .bind (.scan (.unsigned 4)) fun _ => .bind (.scan (.skip 6)) fun _ => .pure _

theorem goes_refArray (field : Option String) (ctx : Context) : Goes (refArray field ctx) := by
  refine fun c => .container "TRefArray" ctx fun skipped => ?_
  refine .bind (.add _) fun _ => .bind (.scan (.skip 10)) fun _ =>
    .bind (.scan .string) fun name => .bind (.scan (.signed 4)) fun size =>
    .bind (.scan (.skip 6)) fun _ => ?_
  have references : Goes (do
      let refs ← times size.toNat do return Value.int (← scan (Scan.signed 4))
      return Value.record [("fName", .text name), ("fSize", .int size), ("refs", .list refs)]) :=
    fun _ => .bind (.times (.bind (.scan (.signed 4)) fun _ => .pure _) _) fun _ => .pure _
  dsimp only
  split
  · exact .bind (.throw _) fun _ => references c
  · exact references c

/-! ## types of other types -/

/-- the two readers agree for every field and context -/
def AgreeAll (c : Cursor) (r s : Reader) : Prop := ∀ field ctx, Agree c (r field ctx) (s field ctx)

namespace Agree

theorem elements (type : StreamType) (count : Nat) {r s : Reading Value} (one : Agree c r s) :
    Agree c (Reading.elements type count r) (Reading.elements type count s) := by
  unfold Reading.elements
  split
  · exact .times (.scan (.primitive _)) count
  · exact .times one count

theorem addList (type : StreamType) (count : Nat) (info : NodeInfo) :
    Agree c (Reading.addList type count info) (Reading.addList type count info) := by
  unfold Reading.addList
  split
  · exact .add _
  · exact .contribute _

theorem leaveList (type : StreamType) :
    Agree c (Reading.leaveList type) (Reading.leaveList type) := by
  unfold Reading.leaveList
  split
  · exact .leave
  · exact .pure _

theorem mapHeader (ctx : Context) :
    Agree c (Reading.mapHeader ctx) (Reading.mapHeader ctx) := by
  unfold Reading.mapHeader
  split
  · exact .pure _
  · refine .bind (.measured .versionHeader) fun (header, skipped) => ?_
    dsimp only
    split
    · exact .bind (.throw _) fun _ => .bind (.scan (.skip 6)) fun _ => .pure _
    · exact .bind (.scan (.skip 6)) fun _ => .pure _

theorem bases {r s : String → Reader} (ctx : Context) {names : List String}
    (inner : ∀ base ∈ names, AgreeAll c (r base) (s base)) :
    Agree c (Reading.bases r ctx names) (Reading.bases s ctx names) := by
  induction names with
  | nil => exact .pure []
  | cons base rest ih =>
    have others := ih fun other mem => inner other (List.mem_cons_of_mem _ mem)
    exact .bind (.contribute _) fun _ =>
      .bind (inner base List.mem_cons_self none (ctx.inBase base)) fun _ =>
      .bind .leave fun _ => .bind others fun _ => .pure _

theorem members {r s : StreamType → Reader} (ctx : Context) {slots : List Member}
    (inner : ∀ member ∈ slots, AgreeAll c (r member.type) (s member.type)) :
    Agree c (Reading.members r ctx slots) (Reading.members s ctx slots) := by
  induction slots with
  | nil => exact .pure []
  | cons member rest ih =>
    have others := ih fun other mem => inner other (List.mem_cons_of_mem _ mem)
    exact .bind (inner member List.mem_cons_self _ _) fun _ => .bind others fun _ => .pure _

end Agree

namespace AgreeAll

variable {r s r' s' : Reader}

theorem vector (element : StreamType) (inner : AgreeAll c r s) :
    AgreeAll c (Reading.vector element r) (Reading.vector element s) := fun _ ctx =>
  .container "std::vector" ctx fun _ => .bind (.scan (.unsigned 4)) fun _ =>
    .bind (.addList element _ _) fun _ =>
    .bind (.elements element _ (inner none ctx.items)) fun _ =>
    .bind (.leaveList element) fun _ => .pure _

theorem array (element : StreamType) (count : Nat) (inner : AgreeAll c r s) :
    AgreeAll c (Reading.array element count r) (Reading.array element count s) := fun field ctx =>
  .bind (.addList element _ _) fun _ =>
    .bind (.elements element _ (inner field ctx.elements)) fun _ =>
    .bind (.leaveList element) fun _ => .pure _

theorem map (keys : AgreeAll c r s) (values : AgreeAll c r' s') :
    AgreeAll c (Reading.map r r') (Reading.map s s') := fun _ ctx =>
  .bind (.scan .pos) fun _ => .bind (.mapHeader ctx) fun (_, _) =>
    .bind (.scan (.unsigned 4)) fun _ => .bind (.contribute _) fun _ =>
    .bind (.looping 0 _ (.times (keys none ctx.mapKeys) _)) fun _ =>
    .bind (.looping 1 _ (.times (values none ctx.mapValues) _)) fun _ =>
    .bind .leave fun _ => .bind (.checkEnd "std::map" _ _) fun _ => .pure _

/-- the bases and members of an object are all that its body asks for -/
theorem body {r s : StreamType → Reader} (className : String) {opening : Opening}
    (ofBase : ∀ base ∈ opening.layout.bases, AgreeAll c (r (.ofClass base)) (s (.ofClass base)))
    (ofMember : ∀ member ∈ opening.layout.members, AgreeAll c (r member.type) (s member.type)) :
    AgreeAll c (Reading.body r className opening) (Reading.body s className opening) :=
  fun _ _ => .bind (.contribute _) fun _ => .bind (.bases _ ofBase) fun _ =>
    .bind (.members _ ofMember) fun _ => .bind .leave fun _ =>
    .bind (.checkEnd className _ _) fun _ => .pure _

end AgreeAll

/-- once an object is open, two bytes of it are taken at least, and there were four to look at -/
theorem onward_of_openObject {registry : Registry} {className : String} {ctx : Context}
    {p q : Progress} {opening : Opening}
    (opened : (openObject registry className ctx).run p = (.ok opening, q)) :
    p.cursor.Onward q.cursor ∧ p.cursor.pos + 2 ≤ q.cursor.pos ∧ 4 ≤ p.cursor.remaining := by
  obtain ⟨latest, header, -, -, takes, -, -, -, -⟩ := openObject_ok registry opened
  refine ⟨(Scan.forward_versionHeader takes).onward, ?_⟩
  obtain ⟨four, n, two, -, there⟩ := Scan.versionHeader_takes takes
  rw [there]
  exact ⟨Nat.add_le_add_left two _, Nat.le_sub_of_add_le' four⟩

end Reading

end Baskets
