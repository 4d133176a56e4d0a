import Baskets.Proofs.Reading.Run
import Baskets.Proofs.Trace

/-!
# Every read has a trace

A read that succeeds is the read of a trace: the trace was taken between the two positions of the
cursor, its value came out, and the generator has grown by what the trace contributes.  A reading
is taken apart by one lemma for each way of putting readings together; then the lemmas follow the
readers.
-/

namespace Baskets

variable {α β : Type}

/-! ## successful parts -/

namespace Scan

theorem Takes.run {s : Scan α} {c d : Cursor} {a : α} (h : s.Takes c a d) :
    s.run c = (.ok a, d) := h

theorem takes_bind {s : Scan α} {f : α → Scan β} {c d : Cursor} {b : β}
    (h : (s >>= f).Takes c b d) : ∃ a e, s.Takes c a e ∧ (f a).Takes e b d := run_bind_ok h

theorem takes_pure {a b : α} {c d : Cursor} (h : (pure a : Scan α).Takes c b d) :
    b = a ∧ d = c := by
  cases h
  exact ⟨rfl, rfl⟩

/-- a text is its characters, decoded -/
theorem takes_string {c d : Cursor} {s : String} (h : string.Takes c s d) :
    ∃ bytes, characters.Takes c bytes d ∧ s = Text.lossy bytes := by
  obtain ⟨short, e, first, h⟩ := takes_bind h
  unfold Takes characters
  rw [run_bind, first.run]
  dsimp only at h ⊢
  by_cases long : short = 255
  · rw [if_pos long] at h ⊢
    obtain ⟨length, f, second, h⟩ := takes_bind h
    obtain ⟨bytes, k, third, h⟩ := takes_bind h
    obtain ⟨rfl, rfl⟩ := takes_pure h
    rw [run_bind, second.run]
    exact ⟨bytes, third, rfl⟩
  · rw [if_neg long] at h ⊢
    obtain ⟨length, f, second, h⟩ := takes_bind h
    obtain ⟨bytes, k, third, h⟩ := takes_bind h
    obtain ⟨rfl, rfl⟩ := takes_pure h
    rw [run_bind, second.run]
    exact ⟨bytes, third, rfl⟩

end Scan

namespace Reading

theorem scan_ok {s : Scan α} {p q : Progress} {a : α} (h : (scan s).run p = (.ok a, q)) :
    s.Takes p.cursor a q.cursor ∧ q.generator = p.generator := by
  rw [run_scan] at h
  unfold Scan.Takes
  cases hs : s.run p.cursor with
  | mk result d =>
    rw [hs] at h
    cases h
    exact ⟨rfl, rfl⟩

theorem measured_ok {s : Scan α} {p q : Progress} {a : α} {skipped : Nat}
    (h : (measured s).run p = (.ok (a, skipped), q)) :
    s.Takes p.cursor a q.cursor ∧ skipped = q.cursor.pos - p.cursor.pos ∧
      q.generator = p.generator := by
  obtain ⟨taken, same⟩ := scan_ok h
  obtain ⟨start, c, first, taken⟩ := Scan.takes_bind taken
  cases first
  obtain ⟨b, d, second, taken⟩ := Scan.takes_bind taken
  obtain ⟨stop, e, third, taken⟩ := Scan.takes_bind taken
  cases third
  obtain ⟨pair, back⟩ := Scan.takes_pure taken
  cases pair
  rw [back]
  exact ⟨second, rfl, same⟩

theorem contribute_ok {f : Generator → Generator} {p q : Progress} {u : Unit}
    (h : (contribute f).run p = (.ok u, q)) :
    q.cursor = p.cursor ∧ q.generator = p.generator.map f := by
  cases h
  exact ⟨rfl, rfl⟩

theorem pure_ok {a b : α} {p q : Progress} (h : (pure a : Reading α).run p = (.ok b, q)) :
    b = a ∧ q = p := by
  cases h
  exact ⟨rfl, rfl⟩

theorem throw_ok {fault : Fault} {a : α} {p q : Progress}
    (h : (throw fault : Reading α).run p = (.ok a, q)) : False := by
  cases h

theorem leave_ok {p q : Progress} {u : Unit} (h : leave.run p = (.ok u, q)) :
    q.cursor = p.cursor ∧ q.generator = p.generator.map Generator.left := by
  obtain ⟨c, made⟩ := p
  cases made with
  | none =>
    cases h
    exact ⟨rfl, rfl⟩
  | some g =>
    rw [run_leave_some] at h
    show q.cursor = c ∧ q.generator = some g.left
    unfold Generator.left
    cases popped : g.pop with
    | error fault =>
      rw [popped] at h
      cases h
    | ok left =>
      rw [popped] at h
      cases h
      exact ⟨rfl, rfl⟩

theorem memberwise_ok {what : String} {a : α} {p q : Progress}
    (h : (memberwise what : Reading α).run p = (.ok a, q)) : False := by
  obtain ⟨made, m, -, h⟩ := run_bind_ok h
  cases made with
  | false => exact throw_ok h
  | true => exact throw_ok h

/-- a check that comes first, and what comes after it -/
theorem unless_ok {condition : Prop} [Decidable condition] {stop rest : Reading α} {p q : Progress}
    {a : α} (never : ∀ b m, stop.run p ≠ (.ok b, m))
    (h : (if condition then stop else rest).run p = (.ok a, q)) :
    ¬condition ∧ rest.run p = (.ok a, q) := by
  split at h
  · exact absurd h (never a q)
  · exact ⟨‹_›, h⟩

theorem containerHeader_ok {what : String} {ctx : Context} {p q : Progress}
    {header : Option VersionHeader} {skipped : Nat}
    (h : (containerHeader what ctx).run p = (.ok (header, skipped), q)) :
    HeaderBefore ctx p.cursor skipped q.cursor ∧ q.generator = p.generator := by
  unfold containerHeader at h
  cases on : ctx.header with
  | false =>
    rw [on] at h
    obtain ⟨pair, rfl⟩ := pure_ok h
    cases pair
    exact ⟨.absent on, rfl⟩
  | true =>
    rw [on] at h
    obtain ⟨⟨first, length⟩, m, measuring, h⟩ := run_bind_ok h
    obtain ⟨taken, rfl, same⟩ := measured_ok measuring
    dsimp only at h
    split at h
    · obtain ⟨_, _, refused, _⟩ := run_bind_ok h
      exact (memberwise_ok refused).elim
    · obtain ⟨pair, rfl⟩ := pure_ok h
      cases pair
      exact ⟨.present on taken, same⟩

theorem checkEnd_ok {what : String} {start : Nat} {header : Option VersionHeader} {p q : Progress}
    {u : Unit} (h : (checkEnd what start header).run p = (.ok u, q)) : q = p := by
  unfold checkEnd at h
  split at h
  · exact (pure_ok h).2
  · obtain ⟨actual, m, scanned, h⟩ := run_bind_ok h
    cases scanned
    dsimp only at h
    split at h
    · exact (throw_ok h).elim
    · exact (pure_ok h).2

/-- the body of a container, with the header before it -/
theorem container_ok {what : String} {ctx : Context} {body : Nat → Reading α} {p q : Progress}
    {a : α} (h : (container what ctx body).run p = (.ok a, q)) :
    ∃ skipped m, HeaderBefore ctx p.cursor skipped m.cursor ∧ m.generator = p.generator ∧
      (body skipped).run m = (.ok a, q) := by
  obtain ⟨start, m, scanned, h⟩ := run_bind_ok h
  cases scanned
  obtain ⟨⟨header, skipped⟩, m, opened, h⟩ := run_bind_ok h
  obtain ⟨result, k, inside, h⟩ := run_bind_ok h
  obtain ⟨_, l, checked, h⟩ := run_bind_ok h
  obtain ⟨rfl, rfl⟩ := pure_ok h
  rw [← checkEnd_ok checked] at inside
  obtain ⟨before, same⟩ := containerHeader_ok opened
  exact ⟨skipped, m, before, same, inside⟩

/-! ## types of a fixed layout -/

section
variable (registry : Registry)

/-- the read of a value from `p` to `q` has a trace -/
def Traced (type : StreamType) (field : Option String) (ctx : Context) (p : Progress)
    (value : Value) (q : Progress) : Prop :=
  ∃ trace : Trace, trace.Reads registry p.generator.isSome type ctx p.cursor q.cursor ∧
    value = trace.value ∧ q.generator = p.generator.map (trace.contribute field ctx)

/-- every successful read has a trace -/
def Traceable (type : StreamType) (reader : Reader) : Prop :=
  ∀ (field : Option String) (ctx : Context) (p : Progress) (value : Value) (q : Progress),
    (reader field ctx).run p = (.ok value, q) → Traced registry type field ctx p value q

theorem traceable_primitive (p : Primitive) : Traceable registry (.primitive p) (primitive p) := by
  intro field ctx start value stop h
  obtain ⟨_, m, added, h⟩ := run_bind_ok h
  obtain ⟨here, grown⟩ := contribute_ok added
  obtain ⟨taken, same⟩ := scan_ok h
  rw [here] at taken
  exact ⟨.number p value, .number taken, rfl, same.trans grown⟩

theorem traceable_text (kind : TextKind) : Traceable registry (.text kind) (text kind) := by
  intro field ctx p value q h
  unfold text at h
  have body : ∀ skipped m, (do
      add (Contribution.text skipped field ctx)
      return Value.text (← scan Scan.string) : Reading Value).run m = (.ok value, q) →
      ∃ bytes, Scan.characters.Takes m.cursor bytes q.cursor ∧ value = .text (Text.lossy bytes) ∧
        q.generator =
          m.generator.map fun g => (g.add (.mk (Contribution.text skipped field ctx) [])).2 := by
    intro skipped m h
    obtain ⟨_, k, added, h⟩ := run_bind_ok h
    obtain ⟨here, grown⟩ := contribute_ok added
    obtain ⟨s, l, scanned, h⟩ := run_bind_ok h
    obtain ⟨taken, same⟩ := scan_ok scanned
    obtain ⟨bytes, characters, rfl⟩ := Scan.takes_string taken
    obtain ⟨rfl, rfl⟩ := pure_ok h
    rw [here] at characters
    exact ⟨bytes, characters, rfl, same.trans grown⟩
  cases kind with
  | tstring =>
    obtain ⟨bytes, taken, rfl, grown⟩ := body 0 p h
    exact ⟨.text .tstring 0 bytes, .tstring taken, rfl, grown⟩
  | stdString =>
    obtain ⟨skipped, m, before, same, h⟩ := container_ok h
    obtain ⟨bytes, taken, rfl, grown⟩ := body skipped m h
    rw [same] at grown
    exact ⟨.text .stdString skipped bytes, .stdString before taken, rfl, grown⟩

theorem traceable_objectHead : Traceable registry .object objectHead := by
  intro field ctx p value q h
  obtain ⟨⟨⟨unique, bits⟩, skipped⟩, m, measuring, h⟩ := run_bind_ok h
  obtain ⟨taken, rfl, same⟩ := measured_ok measuring
  obtain ⟨_, k, entering, h⟩ := run_bind_ok h
  obtain ⟨here, entered⟩ := contribute_ok entering
  obtain ⟨_, l, added, h⟩ := run_bind_ok h
  obtain ⟨there, grown⟩ := contribute_ok added
  obtain ⟨_, n, leaving, h⟩ := run_bind_ok h
  obtain ⟨back, left⟩ := leave_ok leaving
  obtain ⟨rfl, rfl⟩ := pure_ok h
  have at_ : HeadAt ctx p.cursor (m.cursor.pos - p.cursor.pos) (unique, bits) q.cursor := by
    rw [back, there, here]
    cases on : ctx.objectHead with
    | false =>
      rw [on] at taken
      obtain ⟨pair, stays⟩ := Scan.takes_pure taken
      cases pair
      rw [stays, Nat.sub_self]
      exact .absent on
    | true =>
      rw [on] at taken
      exact .present on taken
  refine ⟨.head (m.cursor.pos - p.cursor.pos) unique bits, .head at_, rfl, ?_⟩
  rw [left, grown, entered, same, Option.map_map, Option.map_map]
  rfl

theorem traceable_datime : Traceable registry .datime datime := by
  intro field ctx p value q h
  obtain ⟨_, m, added, h⟩ := run_bind_ok h
  obtain ⟨here, grown⟩ := contribute_ok added
  obtain ⟨packed, k, scanned, h⟩ := run_bind_ok h
  obtain ⟨taken, same⟩ := scan_ok scanned
  obtain ⟨rfl, rfl⟩ := pure_ok h
  rw [here] at taken
  exact ⟨.datime packed, .datime taken, rfl, same.trans grown⟩

theorem traceable_time : Traceable registry .time time := by
  intro field ctx p value q h
  obtain ⟨skipped, m, before, start, h⟩ := container_ok h
  obtain ⟨_, k, added, h⟩ := run_bind_ok h
  obtain ⟨here, grown⟩ := contribute_ok added
  obtain ⟨milliseconds, l, scanned, h⟩ := run_bind_ok h
  obtain ⟨taken, same⟩ := scan_ok scanned
  obtain ⟨rfl, rfl⟩ := pure_ok h
  rw [here] at taken
  rw [start] at grown
  exact ⟨.time skipped milliseconds, .time before taken, rfl, same.trans grown⟩

theorem traceable_ref : Traceable registry .ref ref := by
  intro field ctx p value q h
  obtain ⟨_, m, added, h⟩ := run_bind_ok h
  obtain ⟨here, grown⟩ := contribute_ok added
  obtain ⟨_, k, skipping, h⟩ := run_bind_ok h
  obtain ⟨before, first⟩ := scan_ok skipping
  obtain ⟨reference, l, scanned, h⟩ := run_bind_ok h
  obtain ⟨taken, second⟩ := scan_ok scanned
  obtain ⟨_, n, skipping, h⟩ := run_bind_ok h
  obtain ⟨behind, third⟩ := scan_ok skipping
  obtain ⟨rfl, rfl⟩ := pure_ok h
  rw [here] at before
  refine ⟨.ref reference, .ref before taken behind, rfl, ?_⟩
  rw [third, second, first, grown]
  rfl

/-- references one after the other, as so many numbers -/
theorem references_ok (count : Nat) {p q : Progress} {values : List Value}
    (h : (times count do return Value.int (← scan (Scan.signed 4)) : Reading (List Value)).run p =
      (.ok values, q)) :
    ∃ refs : List Int, refs.length = count ∧ References p.cursor refs q.cursor ∧
      values = refs.map .int ∧ q.generator = p.generator := by
  induction count generalizing p q values with
  | zero =>
    obtain ⟨rfl, rfl⟩ := pure_ok h
    exact ⟨[], rfl, .nil, rfl, rfl⟩
  | succ count ih =>
    obtain ⟨first, m, one, h⟩ := run_bind_ok h
    obtain ⟨number, k, scanned, one⟩ := run_bind_ok one
    obtain ⟨taken, same⟩ := scan_ok scanned
    obtain ⟨rfl, rfl⟩ := pure_ok one
    obtain ⟨rest, k, others, h⟩ := run_bind_ok h
    obtain ⟨refs, length, all, rfl, still⟩ := ih others
    obtain ⟨rfl, rfl⟩ := pure_ok h
    exact ⟨number :: refs, congrArg (· + 1) length, .cons taken all, rfl, still.trans same⟩

theorem traceable_refArray : Traceable registry .refArray refArray := by
  intro field ctx p value q h
  obtain ⟨skipped, m, before, start, h⟩ := container_ok h
  obtain ⟨_, k, added, h⟩ := run_bind_ok h
  obtain ⟨here, grown⟩ := contribute_ok added
  obtain ⟨_, l, skipping, h⟩ := run_bind_ok h
  obtain ⟨lead, first⟩ := scan_ok skipping
  obtain ⟨name, n, scanned, h⟩ := run_bind_ok h
  obtain ⟨named, second⟩ := scan_ok scanned
  obtain ⟨bytes, characters, rfl⟩ := Scan.takes_string named
  obtain ⟨size, r, scanned, h⟩ := run_bind_ok h
  obtain ⟨count, third⟩ := scan_ok scanned
  obtain ⟨_, s, skipping, h⟩ := run_bind_ok h
  obtain ⟨gap, fourth⟩ := scan_ok skipping
  dsimp only at h
  split at h
  · obtain ⟨_, _, refused, _⟩ := run_bind_ok h
    exact (throw_ok refused).elim
  · rename_i sized
    obtain ⟨values, t, listing, h⟩ := run_bind_ok h
    obtain ⟨refs, length, all, rfl, fifth⟩ := references_ok size.toNat listing
    obtain ⟨rfl, rfl⟩ := pure_ok h
    have size_eq : size = refs.length := by omega
    rw [here] at lead
    rw [size_eq] at count
    refine ⟨.refArray skipped bytes refs, .refArray before lead characters count gap all, ?_, ?_⟩
    · rw [size_eq]
      rfl
    · rw [fifth, fourth, third, second, first, grown, start]
      rfl

/-! ## types of other types -/

/-- so many values, one after the other -/
theorem times_ok {type : StreamType} {reader : Reader} (one : Traceable registry type reader)
    (field : Option String) (ctx : Context) (count : Nat) {p q : Progress} {values : List Value}
    (h : (times count (reader field ctx)).run p = (.ok values, q)) :
    ∃ traces : List Trace, traces.length = count ∧
      Trace.ReadsAll registry p.generator.isSome type ctx p.cursor traces q.cursor ∧
      values = Trace.values traces ∧
      q.generator = p.generator.map (Trace.contributeAll field ctx traces) := by
  induction count generalizing p q values with
  | zero =>
    obtain ⟨rfl, rfl⟩ := pure_ok h
    refine ⟨[], rfl, .nil, rfl, ?_⟩
    cases q.generator <;> rfl
  | succ count ih =>
    obtain ⟨value, m, head, h⟩ := run_bind_ok h
    obtain ⟨rest, k, tail, h⟩ := run_bind_ok h
    obtain ⟨rfl, rfl⟩ := pure_ok h
    obtain ⟨trace, first, rfl, grown⟩ := one field ctx p value m head
    obtain ⟨traces, length, all, rfl, others⟩ := ih tail
    rw [grown, Option.isSome_map] at all
    refine ⟨trace :: traces, congrArg (· + 1) length, .cons first all, rfl, ?_⟩
    rw [others, grown, Option.map_map]
    rfl

/-- so many numbers, which the generator does not see -/
theorem numbers_ok (primitive : Primitive) (made : Bool) (ctx : Context) (count : Nat)
    {p q : Progress} {values : List Value}
    (h : (times count (scan primitive.scan)).run p = (.ok values, q)) :
    ∃ traces : List Trace, traces.length = count ∧
      Trace.ReadsAll registry made (.primitive primitive) ctx p.cursor traces q.cursor ∧
      values = Trace.values traces ∧ q.generator = p.generator := by
  induction count generalizing p q values with
  | zero =>
    obtain ⟨rfl, rfl⟩ := pure_ok h
    exact ⟨[], rfl, .nil, rfl, rfl⟩
  | succ count ih =>
    obtain ⟨value, m, head, h⟩ := run_bind_ok h
    obtain ⟨rest, k, tail, h⟩ := run_bind_ok h
    obtain ⟨rfl, rfl⟩ := pure_ok h
    obtain ⟨taken, same⟩ := scan_ok head
    obtain ⟨traces, length, all, rfl, still⟩ := ih tail
    exact ⟨.number primitive value :: traces, congrArg (· + 1) length, .cons (.number taken) all,
      rfl, still.trans same⟩

/-- the elements of a list, from the node of the list to what comes after them -/
theorem listed_ok {type : StreamType} {reader : Reader} (one : Traceable registry type reader)
    (field : Option String) (ctx : Context) (count : Nat) (info : NodeInfo)
    {rest : List Value → Reading β} {p q : Progress} {b : β}
    (h : (do
      addList type count info
      let items ← elements type count (reader field ctx)
      leaveList type
      rest items).run p = (.ok b, q)) :
    ∃ (items : List Trace) (m : Progress), items.length = count ∧
      Trace.ReadsAll registry p.generator.isSome type ctx p.cursor items m.cursor ∧
      m.generator =
        p.generator.map (Generator.inList type count info (Trace.contributeAll field ctx items)) ∧
      (rest (Trace.values items)).run m = (.ok b, q) := by
  unfold addList elements leaveList at h
  unfold Generator.inList
  cases kind : type.primitive? with
  | some number =>
    have here : type = .primitive number := by
      cases type <;> cases kind
      rfl
    subst here
    rw [kind] at h
    obtain ⟨_, m, added, h⟩ := run_bind_ok h
    obtain ⟨stays, grown⟩ := contribute_ok added
    obtain ⟨values, k, listing, h⟩ := run_bind_ok h
    obtain ⟨_, l, nothing, h⟩ := run_bind_ok h
    obtain ⟨-, rfl⟩ := pure_ok nothing
    obtain ⟨items, length, all, rfl, same⟩ :=
      numbers_ok registry number p.generator.isSome ctx count listing
    rw [stays] at all
    exact ⟨items, l, length, all, same.trans grown, h⟩
  | none =>
    rw [kind] at h
    obtain ⟨_, m, entering, h⟩ := run_bind_ok h
    obtain ⟨stays, entered⟩ := contribute_ok entering
    obtain ⟨values, k, listing, h⟩ := run_bind_ok h
    obtain ⟨_, l, leaving, h⟩ := run_bind_ok h
    obtain ⟨items, length, all, rfl, grown⟩ := times_ok registry one field ctx count listing
    obtain ⟨back, left⟩ := leave_ok leaving
    rw [entered, Option.isSome_map, stays, ← back] at all
    refine ⟨items, l, length, all, ?_, h⟩
    rw [left, grown, entered, Option.map_map, Option.map_map]
    rfl

theorem traceable_vector (element : StreamType) {reader : Reader}
    (one : Traceable registry element reader) :
    Traceable registry (.vector element) (vector element reader) := by
  intro field ctx p value q h
  obtain ⟨skipped, m, before, start, h⟩ := container_ok h
  obtain ⟨count, k, scanned, h⟩ := run_bind_ok h
  obtain ⟨counted, same⟩ := scan_ok scanned
  obtain ⟨items, l, rfl, all, grown, h⟩ := listed_ok registry one none ctx.items count _ h
  obtain ⟨rfl, rfl⟩ := pure_ok h
  rw [same, start] at all grown
  exact ⟨.vector element skipped items, .vector before counted all, rfl, grown⟩

theorem traceable_array (element : StreamType) (count : UInt64) {reader : Reader}
    (one : Traceable registry element reader) :
    Traceable registry (.array element count) (array element count.toNat reader) := by
  intro field ctx p value q h
  obtain ⟨items, l, length, all, grown, h⟩ :=
    listed_ok registry one field ctx.elements count.toNat _ h
  obtain ⟨rfl, rfl⟩ := pure_ok h
  rw [← length] at grown
  exact ⟨.array element items, .array length all, rfl, grown⟩

theorem mapHeader_ok {ctx : Context} {p q : Progress} {header : Option VersionHeader}
    {skipped : Nat} (h : (mapHeader ctx).run p = (.ok (header, skipped), q)) :
    MapHeaderBefore ctx p.cursor skipped q.cursor ∧ q.generator = p.generator := by
  unfold mapHeader at h
  cases on : ctx.header with
  | false =>
    rw [on] at h
    obtain ⟨pair, rfl⟩ := pure_ok h
    cases pair
    exact ⟨.absent on, rfl⟩
  | true =>
    rw [on] at h
    obtain ⟨⟨first, length⟩, m, measuring, h⟩ := run_bind_ok h
    obtain ⟨taken, rfl, same⟩ := measured_ok measuring
    dsimp only at h
    split at h
    · obtain ⟨_, _, refused, _⟩ := run_bind_ok h
      exact (throw_ok refused).elim
    · obtain ⟨_, k, skipping, h⟩ := run_bind_ok h
      obtain ⟨further, still⟩ := scan_ok skipping
      obtain ⟨pair, rfl⟩ := pure_ok h
      cases pair
      exact ⟨.present on taken further, still.trans same⟩

/-- what is read below a loop, and the loop that the generator gains -/
theorem looping_ok {slot : Nat} {start : Instruction} {r : Reading α} {p q : Progress} {a : α}
    (h : (looping slot start r).run p = (.ok a, q)) :
    ∃ m, r.run p = (.ok a, m) ∧ q.cursor = m.cursor ∧ ∀ grow,
      m.generator = p.generator.map grow →
        q.generator = p.generator.map (Generator.looping slot start grow) := by
  obtain ⟨p', m, got, h⟩ := run_bind_ok h
  cases got
  obtain ⟨a', k, inside, h⟩ := run_bind_ok h
  unfold Generator.looping
  cases made : p.generator with
  | none =>
    rw [made] at h
    obtain ⟨rfl, rfl⟩ := pure_ok h
    exact ⟨q, inside, rfl, fun _ grown => grown⟩
  | some g =>
    rw [made] at h
    dsimp only [Option.map] at h ⊢
    by_cases first : (g.children g.active).length = slot
    · rw [if_pos first] at h
      obtain ⟨_, l, placing, h⟩ := run_bind_ok h
      obtain ⟨rfl, rfl⟩ := pure_ok h
      obtain ⟨stays, looped⟩ := contribute_ok placing
      refine ⟨k, inside, stays, fun grow grown => ?_⟩
      rw [looped, grown, if_pos first]
      rfl
    · rw [if_neg first] at h
      obtain ⟨rfl, rfl⟩ := pure_ok h
      refine ⟨q, inside, rfl, fun grow grown => ?_⟩
      rw [grown, if_neg first]

theorem traceable_map {key value : StreamType} {keyReader valueReader : Reader}
    (keysTraced : Traceable registry key keyReader)
    (valuesTraced : Traceable registry value valueReader) :
    Traceable registry (.map key value) (map keyReader valueReader) := by
  intro field ctx p result q h
  obtain ⟨_, m, scanned, h⟩ := run_bind_ok h
  cases scanned
  obtain ⟨⟨header, skipped⟩, m, opened, h⟩ := run_bind_ok h
  obtain ⟨before, same⟩ := mapHeader_ok opened
  obtain ⟨count, k, scanned, h⟩ := run_bind_ok h
  obtain ⟨counted, still⟩ := scan_ok scanned
  obtain ⟨_, l, entering, h⟩ := run_bind_ok h
  obtain ⟨here, entered⟩ := contribute_ok entering
  obtain ⟨keyValues, n, keyed, h⟩ := run_bind_ok h
  obtain ⟨n', listing, thereKeys, loopKeys⟩ := looping_ok keyed
  obtain ⟨keys, rfl, allKeys, rfl, grownKeys⟩ :=
    times_ok registry keysTraced none ctx.mapKeys count listing
  have loopedKeys := loopKeys _ grownKeys
  obtain ⟨valueValues, r, valued, h⟩ := run_bind_ok h
  obtain ⟨r', listing, thereValues, loopValues⟩ := looping_ok valued
  obtain ⟨values, length, allValues, rfl, grownValues⟩ :=
    times_ok registry valuesTraced none ctx.mapValues _ listing
  have loopedValues := loopValues _ grownValues
  obtain ⟨_, s, leaving, h⟩ := run_bind_ok h
  obtain ⟨back, left⟩ := leave_ok leaving
  obtain ⟨_, t, checked, h⟩ := run_bind_ok h
  obtain ⟨rfl, rfl⟩ := pure_ok h
  have stop := checkEnd_ok checked
  subst stop
  have made : l.generator.isSome = p.generator.isSome := by
    rw [entered, Option.isSome_map, still, same]
  have madeToo : n.generator.isSome = p.generator.isSome := by
    rw [loopedKeys, Option.isSome_map, made]
  rw [made, here, ← thereKeys] at allKeys
  rw [madeToo, ← thereValues, ← back] at allValues
  refine ⟨.map skipped keys values, .map before counted length allKeys allValues, rfl, ?_⟩
  rw [left, loopedValues, loopedKeys, entered, still, same, Option.map_map, Option.map_map,
    Option.map_map]
  rfl

/-! ## classes -/

/-- what opens an object -/
theorem openObject_ok {className : String} {ctx : Context} {p q : Progress} {opening : Opening}
    (h : (openObject registry className ctx).run p = (.ok opening, q)) :
    ∃ (latest : Layout) (header : VersionHeader),
      (p.generator.isSome = true → className ∉ ctx.breadcrumbs) ∧
      registry.latest? className = some latest ∧
      Scan.versionHeader.Takes p.cursor header q.cursor ∧
      opening.skipped = q.cursor.pos - p.cursor.pos ∧
      opening.layout = (registry.get? className header.version).getD latest ∧
      opening.otherVersion = decide (opening.layout.version ≠ latest.version) ∧
      q.generator = p.generator := by
  obtain ⟨made, m, asked, h⟩ := run_bind_ok h
  cases asked
  obtain ⟨outside, h⟩ := unless_ok (fun _ _ refused => throw_ok refused) h
  cases known : registry.latest? className with
  | none =>
    rw [known] at h
    exact (throw_ok h).elim
  | some latest =>
    rw [known] at h
    obtain ⟨start, m, scanned, h⟩ := run_bind_ok h
    cases scanned
    obtain ⟨⟨header, skipped⟩, m, measuring, h⟩ := run_bind_ok h
    obtain ⟨taken, rfl, same⟩ := measured_ok measuring
    dsimp only at h
    split at h
    · obtain ⟨_, _, refused, _⟩ := run_bind_ok h
      exact (memberwise_ok refused).elim
    · obtain ⟨rfl, rfl⟩ := pure_ok h
      refine ⟨latest, header, fun generating inside => outside ?_, rfl, taken, rfl, rfl, rfl, same⟩
      simp [generating, inside]

/-- the bases of an object -/
theorem bases_ok {reader : StreamType → Reader}
    (one : ∀ type, Traceable registry type (reader type)) (ctx : Context) (names : List String)
    {p q : Progress} {fields : List (String × Value)}
    (h : (bases (fun base => reader (.ofClass base)) ctx names).run p = (.ok fields, q)) :
    ∃ traces : List Trace, traces.length = names.length ∧
      Trace.ReadsParts registry p.generator.isSome ctx (names.map .base) p.cursor traces
        q.cursor ∧
      fields = Trace.fields (names.map .base) traces ∧
      q.generator =
        p.generator.map (Trace.contributeParts ctx (names.map .base) traces) := by
  induction names generalizing p q fields with
  | nil =>
    obtain ⟨rfl, rfl⟩ := pure_ok h
    refine ⟨[], rfl, .nil, rfl, ?_⟩
    cases q.generator <;> rfl
  | cons base rest ih =>
    obtain ⟨_, m, entering, h⟩ := run_bind_ok h
    obtain ⟨here, entered⟩ := contribute_ok entering
    obtain ⟨value, k, inside, h⟩ := run_bind_ok h
    obtain ⟨_, l, leaving, h⟩ := run_bind_ok h
    obtain ⟨back, left⟩ := leave_ok leaving
    obtain ⟨others, n, outside, h⟩ := run_bind_ok h
    obtain ⟨rfl, rfl⟩ := pure_ok h
    obtain ⟨trace, first, rfl, grown⟩ := one (.ofClass base) none (ctx.inBase base) m value k inside
    obtain ⟨traces, length, all, rfl, grownRest⟩ := ih outside
    rw [entered, Option.isSome_map, here] at first
    rw [left, grown, entered, Option.isSome_map, Option.isSome_map, Option.isSome_map, back] at all
    refine ⟨trace :: traces, congrArg (· + 1) length, .cons first all, rfl, ?_⟩
    rw [grownRest, left, grown, entered, Option.map_map, Option.map_map, Option.map_map]
    rfl

/-- the members of an object -/
theorem members_ok {reader : StreamType → Reader}
    (one : ∀ type, Traceable registry type (reader type)) (ctx : Context) (slots : List Member)
    {p q : Progress} {fields : List (String × Value)}
    (h : (members reader ctx slots).run p = (.ok fields, q)) :
    ∃ traces : List Trace, traces.length = slots.length ∧
      Trace.ReadsParts registry p.generator.isSome ctx (slots.map .member) p.cursor traces
        q.cursor ∧
      fields = Trace.fields (slots.map .member) traces ∧
      q.generator =
        p.generator.map (Trace.contributeParts ctx (slots.map .member) traces) := by
  induction slots generalizing p q fields with
  | nil =>
    obtain ⟨rfl, rfl⟩ := pure_ok h
    refine ⟨[], rfl, .nil, rfl, ?_⟩
    cases q.generator <;> rfl
  | cons own rest ih =>
    obtain ⟨value, m, inside, h⟩ := run_bind_ok h
    obtain ⟨others, k, outside, h⟩ := run_bind_ok h
    obtain ⟨rfl, rfl⟩ := pure_ok h
    obtain ⟨trace, first, rfl, grown⟩ :=
      one own.type (some own.name) (ctx.inMember own.name) p value m inside
    obtain ⟨traces, length, all, rfl, grownRest⟩ := ih outside
    rw [grown, Option.isSome_map] at all
    refine ⟨trace :: traces, congrArg (· + 1) length, .cons first all, rfl, ?_⟩
    rw [grownRest, grown, Option.map_map]
    rfl

end

end Reading

/-! ## parts of two lists -/

namespace Trace

theorem ReadsParts.append {registry : Registry} {generating : Bool} {ctx : Context}
    {parts others : List Part} {c d e : Cursor} {traces rest : List Trace}
    (first : ReadsParts registry generating ctx parts c traces d)
    (second : ReadsParts registry generating ctx others d rest e) :
    ReadsParts registry generating ctx (parts ++ others) c (traces ++ rest) e := by
  induction traces generalizing parts c with
  | nil =>
    cases first
    exact second
  | cons trace traces ih =>
    cases first with
    | cons head tail => exact .cons head (ih tail)

theorem fields_append {parts others : List Part} {traces rest : List Trace}
    (same : traces.length = parts.length) :
    fields (parts ++ others) (traces ++ rest) = fields parts traces ++ fields others rest := by
  induction traces generalizing parts with
  | nil =>
    cases parts with
    | nil => rfl
    | cons => cases same
  | cons trace traces ih =>
    cases parts with
    | nil => cases same
    | cons part parts =>
      show part.fields trace.value ++ fields (parts ++ others) (traces ++ rest) =
        (part.fields trace.value ++ fields parts traces) ++ fields others rest
      rw [ih (Nat.succ.inj same), List.append_assoc]

theorem contributeParts_append {ctx : Context} {parts others : List Part}
    {traces rest : List Trace} (same : traces.length = parts.length) (g : Generator) :
    contributeParts ctx (parts ++ others) (traces ++ rest) g =
      contributeParts ctx others rest (contributeParts ctx parts traces g) := by
  induction traces generalizing parts g with
  | nil =>
    cases parts with
    | nil => rfl
    | cons => cases same
  | cons trace traces ih =>
    cases parts with
    | nil => cases same
    | cons part parts =>
      cases part with
      | base name => exact ih (Nat.succ.inj same) _
      | member own => exact ih (Nat.succ.inj same) _

end Trace

/-! ## all types -/

namespace Reading

variable (registry : Registry)

/-- an object of a class, when values of all types can be traced -/
theorem traceable_object {reader : StreamType → Reader}
    (one : ∀ type, Traceable registry type (reader type)) (className : String) :
    Traceable registry (.named className) (fun field ctx =>
      openObject registry className ctx >>= fun opening =>
        body reader className opening field ctx) := by
  intro field outer p value q h
  obtain ⟨opening, m, opened, h⟩ := run_bind_ok h
  obtain ⟨latest, header, outside, known, taken, skipped, layout, other, same⟩ :=
    openObject_ok registry opened
  obtain ⟨_, k, entering, h⟩ := run_bind_ok h
  obtain ⟨here, entered⟩ := contribute_ok entering
  obtain ⟨inherited, l, inBases, h⟩ := run_bind_ok h
  obtain ⟨own, n, inMembers, h⟩ := run_bind_ok h
  obtain ⟨_, r, leaving, h⟩ := run_bind_ok h
  obtain ⟨back, left⟩ := leave_ok leaving
  obtain ⟨_, s, checked, h⟩ := run_bind_ok h
  obtain ⟨rfl, rfl⟩ := pure_ok h
  have stop := checkEnd_ok checked
  subst stop
  obtain ⟨basesTraces, basesLength, basesReads, rfl, basesGrown⟩ :=
    bases_ok registry one _ _ inBases
  obtain ⟨membersTraces, membersLength, membersReads, rfl, membersGrown⟩ :=
    members_ok registry one _ _ inMembers
  rw [basesGrown, entered, same, Option.isSome_map, Option.isSome_map, ← back] at membersReads
  rw [entered, same, Option.isSome_map, here] at basesReads
  have basesLength' : basesTraces.length = (opening.layout.bases.map Part.base).length := by
    rw [basesLength, List.length_map]
  refine ⟨.object className opening.skipped opening.layout opening.otherVersion
    (basesTraces ++ membersTraces), ?_, ?_, ?_⟩
  · rw [skipped, other]
    exact .object outside known taken layout (basesReads.append membersReads)
  · exact congrArg Value.record (Trace.fields_append basesLength').symm
  · rw [left, membersGrown, basesGrown, entered, same, Option.map_map, Option.map_map,
      Option.map_map]
    congr 1
    funext g
    show ((Trace.contributeParts _ _ _ (Trace.contributeParts _ _ _ _)).left : Generator) = _
    rw [← Trace.contributeParts_append basesLength']
    rfl

theorem traceable_streamed {readNamed : String → Reader}
    (inner : ∀ name, Traceable registry (.named name) (readNamed name)) (type : StreamType) :
    Traceable registry type (streamed readNamed type) := by
  induction type with
  | primitive p => exact traceable_primitive registry p
  | text kind => exact traceable_text registry kind
  | object => exact traceable_objectHead registry
  | datime => exact traceable_datime registry
  | time => exact traceable_time registry
  | ref => exact traceable_ref registry
  | refArray => exact traceable_refArray registry
  | vector element ih => exact traceable_vector registry element ih
  | array element count ih => exact traceable_array registry element count ih
  | map key value keys values => exact traceable_map registry keys values
  | named name => exact inner name

theorem traceable_named (depth : Nat) (className : String) :
    Traceable registry (.named className) (named registry depth className) := by
  induction depth generalizing className with
  | zero =>
    intro field ctx p value q h
    obtain ⟨opening, m, -, h⟩ := run_bind_ok h
    cases h
  | succ depth ih => exact traceable_object registry (traceable_streamed registry ih) className

end Reading

/-- a successful read is that of a trace -/
theorem Registry.read_traced (registry : Registry) (type : StreamType) (field : Option String)
    (ctx : Context) {p q : Progress} {value : Value}
    (h : (registry.read type field ctx).run p = (.ok value, q)) :
    Reading.Traced registry type field ctx p value q := by
  obtain ⟨p', m, got, h⟩ := Reading.run_bind_ok h
  cases got
  have inner := Reading.traceable_named registry (p.cursor.remaining / 2)
  exact Reading.traceable_streamed registry inner type field ctx p value q h

end Baskets
