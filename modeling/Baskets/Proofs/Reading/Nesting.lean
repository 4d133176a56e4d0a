import Baskets.Proofs.Reachable
import Baskets.Proofs.Reading.Onward

/-!
# Reading comes to an end

A value is read by reading the values inside it, and classes may hold themselves.  `Reading.level`
is one level of this: it reads the header of a value and asks a reader, given from outside, for the
values inside.  `Registry.read` uses itself on every level, although it is defined with a number of
levels to go (`Registry.read_level`): these never run out.

A level asks only for values that are parts of its own and begin onward from it, behind two bytes of
the header if it is a class (`Registry.Encloses`).  So with every level there are fewer bytes left,
or as many and a smaller type, whatever the layouts are (`Registry.weight`).
-/

namespace Baskets

namespace StreamType

/-- how many types a type is made of -/
def extent : StreamType → Nat
  | .vector element | .array element _ => element.extent + 1
  | .map key value => key.extent + value.extent + 1
  | _ => 1

theorem extent_pos (type : StreamType) : 0 < type.extent := by
  cases type <;> exact Nat.succ_pos _

end StreamType

/-- a value that is to be read, and how far the reading has come -/
structure Call where
  type : StreamType
  field : Option String
  ctx : Context
  progress : Progress

namespace Call

/-- what a reader answers -/
def reply (call : Call) (reader : StreamType → Reading.Reader) : Except Fault Value × Progress :=
  (reader call.type call.field call.ctx).run call.progress

def cursor (call : Call) : Cursor := call.progress.cursor

def remaining (call : Call) : Nat := call.cursor.remaining

/-- whether the value is an object, the layout of which is to be looked up -/
def isObject (call : Call) : Bool :=
  match call.type with
  | .named _ => true
  | _ => false

/-- both readers answer the same, and a success is onward -/
def Same (f g : StreamType → Reading.Reader) (call : Call) : Prop :=
  call.reply g = call.reply f ∧
    ∀ value q, call.reply f = (.ok value, q) → call.cursor.Onward q.cursor

end Call

/-! ## levels -/

/-- reads a value, and asks the reader for the values inside it -/
def Reading.level (registry : Registry) (reader : StreamType → Reader) : StreamType → Reader
  | .primitive p => primitive p
  | .text kind => text kind
  | .object => objectHead
  | .datime => datime
  | .time => time
  | .ref => ref
  | .refArray => refArray
  | .vector element => vector element (reader element)
  | .array element count => array element count.toNat (reader element)
  | .map key value => map (reader key) (reader value)
  | .named name => fun field ctx => do
    let opening ← openObject registry name ctx
    body reader name opening field ctx

namespace Registry

open Reading (level streamed named openObject AgreeAll)

/-- the types of the values directly inside a value, for objects by any layout of the class -/
def HasPart (registry : Registry) : StreamType → StreamType → Prop
  | .vector element, inner | .array element _, inner => inner = element
  | .map key value, inner => inner = key ∨ inner = value
  | .named name, inner => ∃ layout ∈ registry.ofClass name, ∃ part ∈ layout.parts, inner = part.type
  | _, _ => False

/-- where the values inside a value can stand -/
structure Encloses (registry : Registry) (outer inner : Call) : Prop where
  part : registry.HasPart outer.type inner.type
  onward : outer.cursor.Onward inner.cursor
  header : outer.isObject = true → outer.cursor.pos + 2 ≤ inner.cursor.pos

variable {registry : Registry} {f g : StreamType → Reading.Reader} {call outer inner : Call}

theorem Encloses.remaining_le (encloses : registry.Encloses outer inner) :
    inner.remaining ≤ outer.remaining := encloses.onward.remaining_le

theorem Encloses.remaining_add_two_le (encloses : registry.Encloses outer inner)
    (object : outer.isObject = true) : inner.remaining + 2 ≤ outer.remaining := by
  have taken : inner.remaining + _ = outer.remaining := encloses.onward.taken
  have := encloses.header object
  omega

/-- **A level asks only for what its value encloses.**  Readers that answer the same there make the
same level. -/
theorem level_same (same : ∀ inner, registry.Encloses call inner → inner.Same f g) :
    call.Same (level registry f) (level registry g) := by
  obtain ⟨type, field, ctx, p⟩ := call
  have agree {part : StreamType} {c : Cursor}
      (encloses : ∀ inner : Call, inner.type = part → c.Onward inner.cursor →
        registry.Encloses ⟨type, field, ctx, p⟩ inner) : AgreeAll c (f part) (g part) :=
    fun field ctx q onward => same ⟨part, field, ctx, q⟩ (encloses _ rfl onward)
  have here : p.cursor.Onward p.cursor := .refl _
  cases type with
  | primitive kind => exact Reading.goes_primitive kind field ctx p.cursor p here
  | text kind => exact Reading.goes_text kind field ctx p.cursor p here
  | object => exact Reading.goes_objectHead field ctx p.cursor p here
  | datime => exact Reading.goes_datime field ctx p.cursor p here
  | time => exact Reading.goes_time field ctx p.cursor p here
  | ref => exact Reading.goes_ref field ctx p.cursor p here
  | refArray => exact Reading.goes_refArray field ctx p.cursor p here
  | vector element =>
    have items : AgreeAll p.cursor (f element) (g element) :=
      agree fun inner is onward => ⟨is, onward, nofun⟩
    exact AgreeAll.vector element items field ctx p here
  | array element count =>
    have items : AgreeAll p.cursor (f element) (g element) :=
      agree fun inner is onward => ⟨is, onward, nofun⟩
    exact AgreeAll.array element count.toNat items field ctx p here
  | map key value =>
    have keys : AgreeAll p.cursor (f key) (g key) :=
      agree fun inner is onward => ⟨.inl is, onward, nofun⟩
    have values : AgreeAll p.cursor (f value) (g value) :=
      agree fun inner is onward => ⟨.inr is, onward, nofun⟩
    exact AgreeAll.map keys values field ctx p here
  | named name =>
    have opened {opening : Reading.Opening} {q : Progress}
        (ran : (openObject registry name ctx).run p = (.ok opening, q)) :
        p.cursor.Onward q.cursor ∧ Reading.Agree q.cursor (Reading.body f name opening field ctx)
          (Reading.body g name opening field ctx) := by
      obtain ⟨onward, header, -⟩ := Reading.onward_of_openObject ran
      have known := Reading.layout_mem_of_openObject ran
      have parts (part : Part) (mem : part ∈ opening.layout.parts) :
          AgreeAll q.cursor (f part.type) (g part.type) :=
        agree fun inner is later => ⟨⟨opening.layout, known, part, mem, is⟩,
          onward.trans later, fun _ => Nat.le_trans header later.pos⟩
      refine ⟨onward, AgreeAll.body name (fun base mem => ?_) (fun member mem => ?_) field ctx⟩
      · exact parts (.base base) (List.mem_append_left _ (List.mem_map_of_mem mem))
      · exact parts (.member member) (List.mem_append_right _ (List.mem_map_of_mem mem))
    constructor
    · show (openObject registry name ctx >>= _).run p = (openObject registry name ctx >>= _).run p
      simpa using Reading.carry_congr fun opening q ran => ((opened ran).2 q (.refl _)).1
    · intro value q ran
      obtain ⟨opening, m, ran, rest⟩ := Reading.run_bind_ok ran
      obtain ⟨onward, agree⟩ := opened ran
      exact onward.trans ((agree m (.refl _)).2 value q rest)

/-! ## every level is smaller -/

/-- how many types the parts are made of, and one more -/
def extentOf : List Part → Nat
  | [] => 1
  | part :: parts => part.type.extent + extentOf parts

theorem extentOf_pos (parts : List Part) : 0 < extentOf parts := by
  induction parts with
  | nil => exact Nat.one_pos
  | cons part parts ih => exact Nat.add_pos_right _ ih

theorem extent_lt_extentOf {parts : List Part} {part : Part} (mem : part ∈ parts) :
    part.type.extent < extentOf parts := by
  induction mem with
  | head rest => exact Nat.lt_add_of_pos_right (extentOf_pos rest)
  | tail _ _ ih => exact Nat.lt_add_left _ ih

/-- more than any part of an object is made of -/
def extent (registry : Registry) : Nat := extentOf (registry.layouts.flatMap Layout.parts)

/-- what is less with every level: each two bytes that remain stand for a type as large as there is
in an object -/
def weight (registry : Registry) (call : Call) : Nat :=
  call.remaining / 2 * registry.extent + call.type.extent

theorem extent_lt_of_mem {layout : Layout} {part : Part} {name : String}
    (known : layout ∈ registry.ofClass name) (mem : part ∈ layout.parts) :
    part.type.extent < registry.extent :=
  extent_lt_extentOf (List.mem_flatMap.2 ⟨layout, List.mem_of_mem_filter known, mem⟩)

/-- a part of a value other than an object is smaller -/
theorem HasPart.extent_lt {type part : StreamType} (has : registry.HasPart type part)
    (other : ∀ name, type ≠ .named name) : part.extent < type.extent := by
  cases type with
  | vector | array =>
    cases has
    exact Nat.lt_succ_self _
  | map key value =>
    have := key.extent_pos
    have := value.extent_pos
    rcases has with rfl | rfl
    · show _ < part.extent + value.extent + 1
      omega
    · show _ < key.extent + part.extent + 1
      omega
  | named name => exact absurd rfl (other name)
  | _ => cases has

theorem Encloses.weight_lt (encloses : registry.Encloses outer inner) :
    registry.weight inner < registry.weight outer := by
  obtain ⟨type, field, ctx, p⟩ := outer
  by_cases object : ∃ name, type = .named name
  · obtain ⟨name, rfl⟩ := object
    obtain ⟨layout, known, part, mem, is⟩ := encloses.part
    have fewer := encloses.remaining_add_two_le rfl
    have smaller : inner.type.extent < registry.extent := is ▸ extent_lt_of_mem known mem
    have half : inner.remaining / 2 + 1 ≤ p.cursor.remaining / 2 := by
      have : inner.remaining + 2 ≤ p.cursor.remaining := fewer
      omega
    have halves := Nat.mul_le_mul_right registry.extent half
    rw [Nat.add_one_mul] at halves
    exact Nat.lt_of_lt_of_le (Nat.add_lt_add_left smaller _) (Nat.le_add_right_of_le halves)
  · have smaller := encloses.part.extent_lt (not_exists.1 object)
    have half : inner.remaining / 2 ≤ p.cursor.remaining / 2 :=
      Nat.div_le_div_right encloses.remaining_le
    have halves := Nat.mul_le_mul_right registry.extent half
    exact Nat.add_lt_add_of_le_of_lt halves smaller

/-! ## levels never run out -/

theorem reply_read (registry : Registry) (call : Call) :
    call.reply registry.read = call.reply (streamed (named registry (call.remaining / 2))) := by
  obtain ⟨type, field, ctx, p⟩ := call
  simp [Call.reply, Registry.read, Call.remaining, Call.cursor]

/-- with levels to go for all bytes that remain, one level is read as it should be -/
theorem same_level {depth : Nat} (enough : call.remaining / 2 ≤ depth)
    (same : ∀ inner, registry.Encloses call inner → ∀ depth, inner.remaining / 2 ≤ depth →
      inner.Same (streamed (named registry depth)) g) :
    call.Same (streamed (named registry depth)) (level registry g) := by
  by_cases object : ∃ name, call.type = .named name
  · obtain ⟨type, field, ctx, p⟩ := call
    obtain ⟨name, rfl⟩ := object
    cases depth with
    | zero =>
      -- too few bytes are left for a header
      have closed {opening : Reading.Opening} {q : Progress}
          (ran : (openObject registry name ctx).run p = (.ok opening, q)) : False := by
        have inside : 4 ≤ p.cursor.remaining := (Reading.onward_of_openObject ran).2.2
        have none : p.cursor.remaining / 2 ≤ 0 := enough
        omega
      constructor
      · show (openObject registry name ctx >>= _).run p =
          (openObject registry name ctx >>= _).run p
        simpa using Reading.carry_congr fun opening q ran => (closed ran).elim
      · intro value q ran
        obtain ⟨opening, m, ran, -⟩ := Reading.run_bind_ok ran
        exact (closed ran).elim
    | succ depth =>
      have deeper (inner : Call) (encloses : registry.Encloses ⟨.named name, field, ctx, p⟩ inner) :
          inner.Same (streamed (named registry depth)) g := by
        refine same inner encloses depth ?_
        have fewer : inner.remaining + 2 ≤ p.cursor.remaining :=
          encloses.remaining_add_two_le rfl
        have : p.cursor.remaining / 2 ≤ depth + 1 := enough
        omega
      exact level_same deeper
  · have level : streamed (named registry depth) call.type =
        level registry (streamed (named registry depth)) call.type := by
      cases is : call.type with
      | named name => exact absurd ⟨name, is⟩ object
      | _ => rfl
    have one : call.Same (Reading.level registry (streamed (named registry depth)))
        (Reading.level registry g) :=
      level_same fun inner encloses => same inner encloses depth
        (Nat.le_trans (Nat.div_le_div_right encloses.remaining_le) enough)
    unfold Call.Same Call.reply at one ⊢
    rwa [level]

/-- **Levels never run out**, if there are enough for all bytes that remain. -/
theorem same_read (registry : Registry) (call : Call) (depth : Nat)
    (enough : call.remaining / 2 ≤ depth) :
    call.Same (streamed (named registry depth)) registry.read := by
  induction less : registry.weight call using Nat.strongRecOn generalizing call depth with
  | ind weight ih =>
    have one (depth : Nat) (enough : call.remaining / 2 ≤ depth) :
        call.Same (streamed (named registry depth)) (level registry registry.read) :=
      same_level enough fun inner encloses depth enough =>
        ih _ (less ▸ encloses.weight_lt) inner depth enough rfl
    refine ⟨?_, (one depth enough).2⟩
    rw [reply_read, ← (one _ (Nat.le_refl _)).1, (one depth enough).1]

/-- a value is read by one level, with the values inside it read in the same way -/
theorem read_level (registry : Registry) (call : Call) :
    call.reply registry.read = call.reply (level registry registry.read) := by
  have one := same_level (Nat.le_refl (call.remaining / 2)) fun inner _ =>
    same_read registry inner
  rw [reply_read, one.1]

theorem onward_of_reply_read {value : Value} {q : Progress}
    (ran : call.reply registry.read = (.ok value, q)) : call.cursor.Onward q.cursor := by
  rw [reply_read] at ran
  exact (same_read registry call _ (Nat.le_refl _)).2 value q ran

/-- a reader that answers as it should for all that a value encloses makes its level -/
theorem reply_level {reader : StreamType → Reading.Reader}
    (same : ∀ inner, registry.Encloses call inner →
      inner.reply reader = inner.reply registry.read) :
    call.reply (level registry reader) = call.reply registry.read := by
  rw [read_level]
  exact (level_same fun inner encloses =>
    ⟨same inner encloses, fun _ _ ran => onward_of_reply_read ran⟩).1

/-! ## values being read -/

/-- In reading the outer value, the inner one is asked for: what comes of the outer one can change
with the answer for that alone. -/
def Consults (registry : Registry) (outer inner : Call) : Prop :=
  ∃ reader : StreamType → Reading.Reader,
    (∀ call, call ≠ inner → call.reply reader = call.reply registry.read) ∧
      outer.reply (level registry reader) ≠ outer.reply registry.read

theorem Consults.encloses (consults : registry.Consults outer inner) :
    registry.Encloses outer inner := by
  obtain ⟨reader, same, differs⟩ := consults
  by_contra elsewhere
  refine differs (reply_level fun call encloses => same call ?_)
  rintro rfl
  exact elsewhere encloses

/-- reads a value by that many levels, and what is below them with the reader -/
def levels (registry : Registry) (reader : StreamType → Reading.Reader) :
    Nat → StreamType → Reading.Reader
  | 0 => reader
  | depth + 1 => level registry (registry.levels reader depth)

theorem reply_levels (reader : StreamType → Reading.Reader) {depth : Nat}
    (deep : registry.weight call < depth) :
    call.reply (registry.levels reader depth) = call.reply registry.read := by
  induction depth generalizing call with
  | zero => exact absurd deep (Nat.not_lt_zero _)
  | succ depth ih =>
    refine reply_level fun inner encloses => ih ?_
    exact Nat.lt_of_lt_of_le encloses.weight_lt (Nat.le_of_lt_succ deep)

/-- every object around another value took two of the bytes that remained -/
theorem two_mul_objects_le {first : Call} {rest : List Call}
    (nested : List.IsChain registry.Encloses (first :: rest)) :
    2 * (first :: rest).dropLast.countP Call.isObject ≤ first.remaining := by
  induction rest generalizing first with
  | nil => exact Nat.zero_le _
  | cons next rest ih =>
    obtain ⟨encloses, inner⟩ := List.isChain_cons_cons.1 nested
    have below := ih inner
    rw [List.dropLast_cons_cons, List.countP_cons]
    split
    · have := encloses.remaining_add_two_le ‹_›
      omega
    · have := encloses.remaining_le
      omega

/-- **Reading comes to an end.**  A value of any type is read by one level, with the values inside
it read in the same way, whatever the layouts are.  Each of these is a part of it and begins onward
from it: two bytes further or more if the outer value is an object, and otherwise it is smaller.  So
there are no endless nests of values; in each, the objects around another value are at most half as
many as bytes remained when the first was begun; and so many levels suffice that it does not matter
what would be done below them. -/
theorem read_ends (registry : Registry) :
    (∀ call : Call, call.reply registry.read = call.reply (level registry registry.read)) ∧
    (∀ outer inner, registry.Consults outer inner → registry.Encloses outer inner) ∧
    (∀ outer inner, registry.Encloses outer inner → inner.remaining ≤ outer.remaining ∧
      if outer.isObject = true then outer.cursor.pos + 2 ≤ inner.cursor.pos
      else inner.type.extent < outer.type.extent) ∧
    WellFounded (fun inner outer => registry.Encloses outer inner) ∧
    (∀ first rest, List.IsChain registry.Encloses (first :: rest) →
      2 * (first :: rest).dropLast.countP Call.isObject ≤ first.remaining) ∧
    ∀ (call : Call) (reader : StreamType → Reading.Reader),
      ∀ depth > registry.weight call,
        call.reply (registry.levels reader depth) = call.reply registry.read := by
  refine ⟨registry.read_level, fun outer inner => Consults.encloses, fun outer inner encloses => ?_,
    ?_, fun first rest => two_mul_objects_le, fun call reader depth => reply_levels reader⟩
  · refine ⟨encloses.remaining_le, ?_⟩
    split
    · exact encloses.header ‹_›
    · refine encloses.part.extent_lt fun name is => ?_
      have object : outer.isObject = true := by
        unfold Call.isObject
        rw [is]
      contradiction
  · exact Subrelation.wf Encloses.weight_lt (measure registry.weight).wf

/-! ### a class that holds itself -/

/-- what makes a value fail when it fails is asked for -/
theorem consults_of_fails (fails : ∀ reader : StreamType → Reading.Reader, ∀ fault,
    inner.reply reader = (.error fault, inner.progress) →
      (outer.reply (level registry reader)).1 = .error fault) : registry.Consults outer inner := by
  classical
  -- one of two faults is not what the reader answers
  obtain ⟨fault, other⟩ : ∃ fault, (outer.reply registry.read).1 ≠ .error fault := by
    by_cases empty : (outer.reply registry.read).1 = .error .emptyStack
    · exact ⟨.unknownClass "", fun same => nomatch empty.symm.trans same⟩
    · exact ⟨.emptyStack, empty⟩
  let reader : StreamType → Reading.Reader := fun type field ctx progress =>
    if { type, field, ctx, progress : Call } = inner then (.error fault, progress)
    else registry.read type field ctx progress
  refine ⟨reader, fun call differs => if_neg differs, fun same => other ?_⟩
  rw [← same]
  exact fails reader fault (if_pos rfl)

/-- an object asks for the first of its bases, once its header was read -/
theorem consults_base {name base : String} {rest : List String} {field : Option String}
    {ctx : Context} {p q : Progress} {opening : Reading.Opening}
    (opened : (openObject registry name ctx).run p = (.ok opening, q))
    (first : opening.layout.bases = base :: rest) :
    registry.Consults ⟨.named name, field, ctx, p⟩
      ⟨.ofClass base, none, (ctx.inClass name).inBase base,
        { q with generator := (q.generator.map (Contribution.intoObject name opening.skipped
            opening.otherVersion field (ctx.inClass name))).map fun g =>
          g.enter (Contribution.base base ((ctx.inClass name).inBase base)) }⟩ := by
  refine consults_of_fails fun reader fault refused => ?_
  show ((openObject registry name ctx >>= _).run p).1 = _
  simp only [Reading.run_bind, opened, Reading.carry_ok, Reading.body, Reading.run_contribute, first,
    Reading.bases]
  exact (congrArg (fun answer => (Reading.carry _ (Reading.carry _ answer)).1) refused).trans rfl

/-- objects of this class hold another each -/
def loops : Registry where
  layouts := [{ name := "Loop", version := 1, bases := ["Loop"] }]
  ordered := List.pairwise_singleton _ _

/-- an object of the class so deep inside others, each begun by two bytes -/
def loop : Nat → Call
  | 0 =>
    { type := .named "Loop", field := none, ctx := .ofOptions {}
      progress := { cursor := { data := #[0, 1, 0, 1, 0, 1, 0, 1] } } }
  | depth + 1 =>
    let outer := loop depth
    { type := .named "Loop", field := none, ctx := (outer.ctx.inClass "Loop").inBase "Loop"
      progress := { cursor := { outer.cursor with pos := outer.cursor.pos + 2 } } }

theorem read_ends_loops :
    List.IsChain loops.Consults [loop 0, loop 1, loop 2, loop 3] ∧
    List.IsChain loops.Encloses [loop 0, loop 1, loop 2, loop 3] ∧
    2 * [loop 0, loop 1, loop 2].countP Call.isObject ≤ (loop 0).remaining ∧
    (loop 0).remaining = 8 ∧
    ((loop 0).reply loops.read).1.isOk = false ∧
    ((loop 0).reply loops.read).2.cursor = (loop 3).cursor := by
  obtain ⟨-, encloses, -, -, nests, -⟩ := loops.read_ends
  let opening (start : Nat) : Reading.Opening :=
    { start, header := { byteCount := none, version := 1, memberwise := false }, skipped := 2
      layout := { name := "Loop", version := 1, bases := ["Loop"] }, otherVersion := false }
  have opened (depth : Nat) (small : depth < 3) :
      (openObject loops "Loop" (loop depth).ctx).run (loop depth).progress =
        (.ok (opening (2 * depth)), (loop (depth + 1)).progress) := by
    match depth, small with
    | 0, _ | 1, _ | 2, _ => rfl
  have first : loops.Consults (loop 0) (loop 1) := consults_base (opened 0 (by decide)) rfl
  have second : loops.Consults (loop 1) (loop 2) := consults_base (opened 1 (by decide)) rfl
  have third : loops.Consults (loop 2) (loop 3) := consults_base (opened 2 (by decide)) rfl
  have asked : List.IsChain loops.Consults [loop 0, loop 1, loop 2, loop 3] :=
    .cons_cons first (.cons_cons second (.cons_cons third (.singleton _)))
  have nested := asked.imp encloses
  refine ⟨asked, nested, nests _ _ nested, rfl, ?_, ?_⟩
  · decide +kernel
  · decide +kernel

end Registry

end Baskets
