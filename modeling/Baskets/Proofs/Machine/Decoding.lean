import Baskets.Proofs.Machine.Scans
import Baskets.Proofs.Plan.Kinds

/-!
# Decoders read what the reader reads

The code of the tree of a type, run where a value of the type begins, ends where the reader ended,
leaves the stack as it was, and writes the numbers and lengths of the trace, each to the columns of
its place (`Trace.writes`).  It takes headers of the right lengths: those that the plan has for the
nodes (`Plan.decodes`).
-/

namespace Baskets

/-! ## what a decoder writes -/

namespace Trace

mutual

/-- the numbers, texts and lengths of lists in the order of reading, each with its place -/
def writes : Trace → Context → List Write
  | .number _ v, ctx => [.value (ctx.path, "") v]
  | .text _ _ bytes, ctx =>
    .count (ctx.path, "") bytes.size ::
      bytes.toList.map fun b => .value (ctx.path, "chars") (.uint b.toNat)
  | .head .., _ => []
  | .datime packed, ctx => [.value (ctx.path, "fDatime") (.uint packed)]
  | .time _ milliseconds, ctx => [.value (ctx.path, "fMilliSec") (.int milliseconds)]
  | .ref reference, ctx => [.value (ctx.path, "ref") (.uint reference)]
  | .refArray _ name refs, ctx =>
    (.count (ctx.path, "fName") name.size ::
        name.toList.map fun b => .value (ctx.path, "fName chars") (.uint b.toNat)) ++
      .value (ctx.path, "fSize") (.int refs.length) :: .count (ctx.path, "refs") refs.length ::
        refs.map fun reference => .value (ctx.path, "refs data") (.int reference)
  | .vector _ _ items, ctx => .count (ctx.path, "") items.length :: writesAll ctx.items items
  | .array _ items, ctx => writesAll ctx.elements items
  | .map _ keys values, ctx =>
    .count (ctx.path, "") keys.length ::
      (writesAll ctx.mapKeys keys ++ writesAll ctx.mapValues values)
  | .object className _ layout _ parts, outer =>
    writesParts (outer.inClass className) layout.parts parts

def writesAll (ctx : Context) : List Trace → List Write
  | [] => []
  | trace :: traces => trace.writes ctx ++ writesAll ctx traces

def writesParts (ctx : Context) (parts : List Part) : List Trace → List Write
  | [] => []
  | trace :: traces =>
    match parts with
    | [] => []
    | part :: parts => trace.writes (part.context ctx) ++ writesParts ctx parts traces

end

end Trace

/-! ## the code of nodes -/

namespace Command

open Contribution

variable {info : NodeInfo} {child : Node} {children : List Node} {commands inner : List Command}
  {instructions : List Instruction} {start : Instruction}

/-- the instructions are no loops, and name columns by words of their own -/
def Straight (instructions : List Instruction) : Prop :=
  ∀ instruction ∈ instructions, instruction.isStep = true ∧
    ∀ key ∈ instruction.keys, Token.Plain key

theorem straight_nil : Straight [] := fun _ mem => absurd mem List.not_mem_nil

theorem Straight.cons {first : Instruction} (step : first.isStep = true)
    (plain : ∀ key ∈ first.keys, Token.Plain key) (rest : Straight instructions) :
    Straight (first :: instructions) := by
  intro instruction mem
  rcases List.mem_cons.1 mem with rfl | mem
  · exact ⟨step, plain⟩
  · exact rest instruction mem

theorem Straight.skip (bytes : Nat) (rest : Straight instructions) :
    Straight (.skip bytes :: instructions) := by
  have none : ∀ key ∈ (Instruction.skip bytes).keys, Token.Plain key :=
    fun _ mem => absurd mem List.not_mem_nil
  exact .cons rfl none rest

theorem straight_skipAny (bytes : Nat) (rest : Straight instructions) :
    Straight (Instruction.skipAny bytes ++ instructions) := by
  unfold Instruction.skipAny
  split
  · exact rest
  · exact .skip bytes rest

@[simp] theorem join_single (line : String) : String.join [line] = line := by
  rw [String.join_cons, String.join_nil, String.append_empty]

theorem means_code (steps : Straight instructions) :
    Means (String.join (code instructions)) (instructions.flatMap Instruction.commands) := by
  induction instructions with
  | nil => exact means_empty
  | cons instruction rest ih =>
    obtain ⟨step, plain⟩ := steps instruction List.mem_cons_self
    have others := ih fun other mem => steps other (List.mem_cons_of_mem _ mem)
    show Means (String.join (instruction.line :: code rest)) _
    rw [String.join_cons, List.flatMap_cons]
    exact (means_step step plain).append others

/-- a node with code before its children only -/
theorem means_before (pre : info.pre = code instructions) (post : info.post = [])
    (steps : Straight instructions) (below : Means (Node.codeAll children) inner) :
    Means (Node.mk info children).code (instructions.flatMap Instruction.commands ++ inner) := by
  unfold Node.code
  rw [pre, post, String.join_nil, String.append_empty]
  exact (means_code steps).append below

theorem means_leaf (pre : info.pre = code instructions) (post : info.post = [])
    (steps : Straight instructions) :
    Means (Node.mk info []).code (instructions.flatMap Instruction.commands) := by
  have none : Means (Node.codeAll []) [] := means_empty
  have whole := means_before pre post steps none
  rw [List.append_nil] at whole
  exact whole

theorem means_single (below : Means child.code inner) : Means (Node.codeAll [child]) inner := by
  unfold Node.codeAll Node.codeAll
  rw [String.append_empty]
  exact below

/-- a node with a loop around its child -/
theorem means_around (pre : info.pre = code (instructions ++ [start]))
    (post : info.post = code [.loopEnd]) (steps : Straight instructions)
    (loop : start.isLoop = true) (below : Means child.code inner) :
    Means (Node.mk info [child]).code
      (instructions.flatMap Instruction.commands ++ (start.commands ++ [.loop inner])) := by
  have front : code (instructions ++ [start]) = code instructions ++ [start.line] :=
    List.map_append
  unfold Node.code
  rw [pre, post, front, String.join_append]
  show Means (String.join (code instructions) ++ String.join [start.line] ++ Node.codeAll [child] ++
    String.join [Instruction.line .loopEnd]) _
  have loops := means_loop loop (means_single below)
  rw [String.append_assoc] at loops
  rw [join_single, join_single, String.append_assoc, String.append_assoc]
  exact (means_code steps).append loops

theorem means_looped (loop : start.isLoop = true) (below : Means child.code inner) :
    Means (child.looped start).code (start.commands ++ [.loop inner]) := by
  have code : (child.looped start).code =
      start.line ++ child.code ++ Instruction.line .loopEnd := by
    cases child with
    | mk info children =>
      show String.join (start.line :: info.pre) ++ Node.codeAll children ++
        String.join (info.post ++ [Instruction.line .loopEnd]) = start.line ++
          (String.join info.pre ++ Node.codeAll children ++ String.join info.post) ++ _
      rw [String.join_cons, String.join_append, join_single]
      simp only [String.append_assoc]
  rw [code]
  exact means_loop loop below

end Command

/-! ## the code of a type -/

/-- the headers are as long as their nodes have them -/
def Agree (length : NodeKind → Nat) (marks : List Mark) : Prop :=
  ∀ mark ∈ marks, mark.length = length mark.node

theorem Agree.append {length : NodeKind → Nat} {marks others : List Mark}
    (agree : Agree length (marks ++ others)) : Agree length marks ∧ Agree length others :=
  ⟨fun mark mem => agree mark (List.mem_append_left _ mem),
    fun mark mem => agree mark (List.mem_append_right _ mem)⟩

namespace Plan

open Command Trace

variable {plan : Plan} {type element : StreamType} {ctx inner : Context} {c d : Cursor}
  {commands : List Command}

/-- the commands read values of the type -/
def Runs (plan : Plan) (type : StreamType) (ctx : Context) (commands : List Command) : Prop :=
  ∀ (trace : Trace) (c d : Cursor), trace.Reads plan.registry true type ctx c d →
    Agree plan.length (trace.marks ctx) → Steps commands c [] d [] (trace.writes ctx)

/-- the code of the tree of the type reads values of the type -/
def Decodes (plan : Plan) (type : StreamType) (ctx : Context) : Prop :=
  ∀ field : Option String, ∃ commands, Means (plan.node type field ctx).code commands ∧
    plan.Runs type ctx commands

theorem plain_nodeName (ctx : Context) (role : String) : Token.Plain (ctx.nodeName role) :=
  Token.plain_name (ctx.path, role)

/-- values one after the other are rounds of a loop -/
theorem Runs.rounds (runs : plan.Runs element inner commands) {items : List Trace}
    (reads : ReadsAll plan.registry true element inner c items d)
    (agree : Agree plan.length (marksAll inner items)) :
    Rounds commands c items.length d (writesAll inner items) := by
  induction items generalizing c with
  | nil =>
    cases reads
    exact .nil
  | cons trace rest ih =>
    cases reads with
    | cons first others =>
      obtain ⟨here, there⟩ := agree.append
      exact .cons (runs trace _ _ first here) (ih others there)

/-- numbers one after the other -/
theorem numbers_reads {registry : Registry} {p : Primitive} {items : List Trace}
    (reads : ReadsAll registry true (.primitive p) inner c items d) :
    Numbers p c (values items) d ∧
      writesAll inner items = (values items).map (.value (inner.path, "")) ∧
      (values items).length = items.length := by
  induction items generalizing c with
  | nil =>
    cases reads
    exact ⟨.nil, rfl, rfl⟩
  | cons trace rest ih =>
    cases reads with
    | cons first others =>
      obtain ⟨numbers, writes, length⟩ := ih others
      cases first with
      | number takes =>
        exact ⟨.cons takes numbers, congrArg (_ :: ·) writes, congrArg (· + 1) length⟩

theorem numbers_marks {registry : Registry} {p : Primitive} {items : List Trace}
    (reads : ReadsAll registry true (.primitive p) inner c items d) : marksAll inner items = [] := by
  induction items generalizing c with
  | nil => rfl
  | cons trace rest ih =>
    cases reads with
    | cons first others =>
      cases first
      exact ih others

/-- the length of a list, which stays on the stack -/
theorem steps_length (place : Place) {count : Nat} (takes : (Scan.unsigned 4).Takes c count d) :
    Steps (Instruction.commands (.length place.name)) c [] d [count] [.count place count] := by
  have number : Primitive.uint32.scan.Takes c (.uint count) d := Scan.Takes.bind takes rfl
  exact (steps_take number rfl).append (steps_count place d count)

theorem decodes_leaf {info : Option String → NodeInfo} {instructions : List Instruction}
    (node : ∀ field, plan.node type field ctx = .mk (info field) [])
    (pre : ∀ field, (info field).pre = Contribution.code instructions)
    (post : ∀ field, (info field).post = []) (straight : Straight instructions)
    (runs : plan.Runs type ctx (instructions.flatMap Instruction.commands)) :
    plan.Decodes type ctx := by
  intro field
  rw [node field]
  exact ⟨_, means_leaf (pre field) (post field) straight, runs⟩

theorem decodes_text (plan : Plan) (kind : TextKind) (ctx : Context) :
    plan.Decodes (.text kind) ctx := by
  have plain : ∀ key ∈ (Instruction.text (ctx.nodeName "") (ctx.nodeName "chars")).keys,
      Token.Plain key := by
    intro key mem
    rcases List.mem_cons.1 mem with rfl | mem
    · exact plain_nodeName ctx ""
    · rw [List.mem_singleton.1 mem]
      exact plain_nodeName ctx "chars"
  cases kind with
  | tstring =>
    refine decodes_leaf (fun field => by rw [node]) (fun _ => rfl) (fun _ => rfl)
      (straight_skipAny 0 (.cons rfl plain straight_nil)) ?_
    intro trace c d reads agree
    cases reads with
    | tstring takes => exact steps_text (ctx.path, "") (ctx.path, "chars") takes
  | stdString =>
    refine decodes_leaf (fun field => by rw [node]) (fun _ => rfl) (fun _ => rfl)
      (straight_skipAny _ (.cons rfl plain straight_nil)) ?_
    intro trace c d reads agree
    cases reads with
    | stdString before takes =>
      have length := agree _ List.mem_cons_self
      rw [← length, List.flatMap_append]
      exact (steps_header before).append (steps_text (ctx.path, "") (ctx.path, "chars") takes)

theorem plain_single {key : String} (plain : Token.Plain key) :
    ∀ other ∈ [key], Token.Plain other := by
  intro other mem
  rw [List.mem_singleton.1 mem]
  exact plain

theorem plain_pair {key second : String} (plain : Token.Plain key)
    (plainSecond : Token.Plain second) : ∀ other ∈ [key, second], Token.Plain other := by
  intro other mem
  rcases List.mem_cons.1 mem with rfl | mem
  · exact plain
  · exact plain_single plainSecond other mem

theorem decodes_primitive (plan : Plan) (p : Primitive) (ctx : Context) :
    plan.Decodes (.primitive p) ctx := by
  have straight : Straight [.number p (ctx.nodeName "")] :=
    .cons rfl (plain_single (plain_nodeName ctx "")) straight_nil
  refine decodes_leaf (fun field => by rw [node]) (fun _ => rfl) (fun _ => rfl) straight ?_
  intro trace c d reads agree
  cases reads with
  | number takes => exact steps_read (ctx.path, "") takes

theorem decodes_datime (plan : Plan) (ctx : Context) : plan.Decodes .datime ctx := by
  have straight : Straight [.number .uint32 (ctx.nodeName "fDatime")] :=
    .cons rfl (plain_single (plain_nodeName ctx "fDatime")) straight_nil
  refine decodes_leaf (fun field => by rw [node]) (fun _ => rfl) (fun _ => rfl) straight ?_
  intro trace c d reads agree
  cases reads with
  | datime takes =>
    have number : Primitive.uint32.scan.Takes c _ d := Scan.Takes.bind takes rfl
    exact steps_read (ctx.path, "fDatime") number

theorem decodes_time (plan : Plan) (ctx : Context) : plan.Decodes .time ctx := by
  have straight : Straight [.number .int64 (ctx.nodeName "fMilliSec")] :=
    .cons rfl (plain_single (plain_nodeName ctx "fMilliSec")) straight_nil
  refine decodes_leaf (fun field => by rw [node]) (fun _ => rfl) (fun _ => rfl)
    (straight_skipAny _ straight) ?_
  intro trace c d reads agree
  cases reads with
  | @time _ _ e _ _ _ before takes =>
    have number : Primitive.int64.scan.Takes e _ d := Scan.Takes.bind takes rfl
    have length := agree _ List.mem_cons_self
    rw [← length, List.flatMap_append]
    exact (steps_header before).append (steps_read (ctx.path, "fMilliSec") number)

theorem decodes_ref (plan : Plan) (ctx : Context) : plan.Decodes .ref ctx := by
  have straight : Straight [.skip 2, .number .uint32 (ctx.nodeName "ref"), .skip 6] :=
    .skip 2 (.cons rfl (plain_single (plain_nodeName ctx "ref")) (.skip 6 straight_nil))
  refine decodes_leaf (fun field => by rw [node]) (fun _ => rfl) (fun _ => rfl) straight ?_
  intro trace c d reads agree
  cases reads with
  | @ref _ _ e f _ _ before takes behind =>
    have number : Primitive.uint32.scan.Takes e _ f := Scan.Takes.bind takes rfl
    exact (steps_skip before).append
      ((steps_read (ctx.path, "ref") number).append (steps_skip behind))

theorem decodes_refArray (plan : Plan) (ctx : Context) : plan.Decodes .refArray ctx := by
  have name := plain_pair (plain_nodeName ctx "fName") (plain_nodeName ctx "fName chars")
  have size := plain_single (plain_nodeName ctx "fSize")
  have refs := plain_pair (plain_nodeName ctx "refs") (plain_nodeName ctx "refs data")
  have behind : Straight [.referenceCount (ctx.nodeName "fSize"), .skip 6,
      .references (ctx.nodeName "refs") (ctx.nodeName "refs data")] :=
    .cons rfl size (.skip 6 (.cons rfl refs straight_nil))
  have straight : Straight (.skip 10 ::
      .text (ctx.nodeName "fName") (ctx.nodeName "fName chars") :: _) :=
    .skip 10 (.cons rfl name behind)
  refine decodes_leaf (fun field => by rw [node]) (fun _ => rfl) (fun _ => rfl)
    (straight_skipAny _ straight) ?_
  intro trace c d reads agree
  cases reads with
  | @refArray _ _ _ e f k l _ _ _ items before lead named count gap takes =>
    have length := agree _ List.mem_cons_self
    rw [← length, List.flatMap_append]
    have number : Primitive.int32.scan.Takes f (.int items.length) k := Scan.Takes.bind count rfl
    have dup : Steps [.dup] k [(items.length : Int)] k [(items.length : Int), items.length] [] :=
      steps_dup k items.length
    have store : Steps [.append (Place.name (ctx.path, "fSize") ++ "-data")] k
        [(items.length : Int), items.length] k [(items.length : Int)]
        [.value (ctx.path, "fSize") (.int items.length)] := steps_single fun _ _ => rfl
    have moved := steps_readMany (ctx.path, "refs data") (numbers_references takes)
    rw [List.length_map, List.map_map] at moved
    have inner := (steps_skip gap).below [(items.length : Int)]
    exact (steps_header before).append ((steps_skip lead).append
      ((steps_text (ctx.path, "fName") (ctx.path, "fName chars") named).append
        (((steps_take number rfl).append (dup.append store)).append
          (inner.append ((steps_count (ctx.path, "refs") l items.length).append moved)))))

theorem decodes_object (plan : Plan) (ctx : Context) : plan.Decodes .object ctx := by
  intro field
  rw [node]
  have record : Means (Node.mk (Contribution.record "TObject" ctx) []).code [] :=
    means_leaf rfl rfl straight_nil
  have straight := straight_skipAny (plan.length (.start (ctx.label "TObject" "model"))) straight_nil
  rw [List.append_nil] at straight
  refine ⟨_, means_before rfl rfl straight (means_single record), ?_⟩
  intro trace c d reads agree
  cases reads with
  | head at_ =>
    have length := agree _ List.mem_cons_self
    rw [← length, List.append_nil]
    exact steps_head at_

theorem decodes_vector (one : plan.Decodes element ctx.items) :
    plan.Decodes (.vector element) ctx := by
  intro field
  rw [node]
  let skipped := plan.length (.field (ctx.nodeName ""))
  have length : Straight [.length (ctx.nodeName "")] :=
    .cons rfl (plain_single (plain_nodeName ctx "")) straight_nil
  cases kind : element.primitive? with
  | some p =>
    obtain rfl := StreamType.eq_primitive kind
    have straight : Straight [.length (ctx.nodeName ""), .numbers p (ctx.items.nodeName "")] :=
      .cons rfl (plain_single (plain_nodeName ctx ""))
        (.cons rfl (plain_single (plain_nodeName ctx.items "")) straight_nil)
    refine ⟨_, means_leaf (pre_vector_numbers kind skipped field ctx) rfl
      (straight_skipAny skipped straight), ?_⟩
    intro trace c d reads agree
    cases reads with
    | @vector _ _ _ _ e _ _ items before count all =>
      obtain ⟨numbers, writes, same⟩ := numbers_reads all
      have moved := steps_readMany (ctx.items.path, "") numbers
      rw [same, ← writes] at moved
      rw [show skipped = _ from (agree _ List.mem_cons_self).symm, List.flatMap_append]
      exact (steps_header before).append ((steps_length (ctx.path, "") count).append moved)
  | none =>
    obtain ⟨commands, means, runs⟩ := one none
    have pre : (Contribution.vector element skipped field ctx).pre =
        Contribution.code ((Instruction.skipAny skipped ++ [.length (ctx.nodeName "")]) ++
          [.loopTaking]) := by
      rw [pre_vector_loop kind, List.append_assoc]
      rfl
    have post : (Contribution.vector element skipped field ctx).post =
        Contribution.code [.loopEnd] := by
      unfold Contribution.vector
      rw [kind]
    refine ⟨_, means_around pre post (straight_skipAny skipped length) rfl means, ?_⟩
    intro trace c d reads agree
    cases reads with
    | @vector _ _ _ _ e _ _ items before count all =>
      have inner : Agree plan.length (marksAll ctx.items items) :=
        fun mark mem => agree mark (List.mem_cons_of_mem _ mem)
      have push : Steps [.push 0] e [(items.length : Int)] e [0, (items.length : Int)] [] :=
        (steps_push e 0).below [(items.length : Int)]
      have loop := push.append (steps_loop (runs.rounds all inner))
      rw [show skipped = _ from (agree _ List.mem_cons_self).symm, List.flatMap_append,
        List.append_assoc]
      exact (steps_header before).append ((steps_length (ctx.path, "") count).append loop)

theorem decodes_array (count : UInt64) (one : plan.Decodes element ctx.elements) :
    plan.Decodes (.array element count) ctx := by
  intro field
  rw [node]
  cases kind : element.primitive? with
  | some p =>
    obtain rfl := StreamType.eq_primitive kind
    have straight : Straight [.block count.toNat p (ctx.elements.nodeName "")] :=
      .cons rfl (plain_single (plain_nodeName ctx.elements "")) straight_nil
    refine ⟨_, means_leaf rfl rfl straight, ?_⟩
    intro trace c d reads agree
    cases reads with
    | array length all =>
      obtain ⟨numbers, writes, same⟩ := numbers_reads all
      have moved := steps_readMany (ctx.elements.path, "") numbers
      rw [same, ← writes, length] at moved
      exact (steps_push c count.toNat).append moved
  | none =>
    obtain ⟨commands, means, runs⟩ := one field
    have pre : (Contribution.array element count.toNat field ctx).pre =
        Contribution.code ([] ++ [.loopTimes count.toNat]) := by
      unfold Contribution.array
      rw [kind]
      rfl
    have post : (Contribution.array element count.toNat field ctx).post =
        Contribution.code [.loopEnd] := by
      unfold Contribution.array
      rw [kind]
    refine ⟨_, means_around pre post straight_nil rfl means, ?_⟩
    intro trace c d reads agree
    cases reads with
    | array length all =>
      have looped := steps_loop (runs.rounds all agree)
      rw [length] at looped
      have limits : Steps [.push count.toNat, .push 0] c [] c [0, (count.toNat : Int)] [] :=
        fun _ _ => rfl
      exact limits.append looped

theorem decodes_map {key value : StreamType} (keysDecode : plan.Decodes key ctx.mapKeys)
    (valuesDecode : plan.Decodes value ctx.mapValues) : plan.Decodes (.map key value) ctx := by
  intro field
  rw [node]
  obtain ⟨keyCommands, keysMean, keysRun⟩ := keysDecode none
  obtain ⟨valueCommands, valuesMean, valuesRun⟩ := valuesDecode none
  have length : Straight [.length (ctx.nodeName "")] :=
    .cons rfl (plain_single (plain_nodeName ctx "")) straight_nil
  have keyLoop : Means ((plan.node key none ctx.mapKeys).looped .loopKeeping).code
      ([.dup, .push 0] ++ [.loop keyCommands]) := means_looped rfl keysMean
  have valueLoop : Means ((plan.node value none ctx.mapValues).looped .loopTaking).code
      ([.push 0] ++ [.loop valueCommands]) := means_looped rfl valuesMean
  have both : Means (Node.codeAll [(plan.node key none ctx.mapKeys).looped .loopKeeping,
      (plan.node value none ctx.mapValues).looped .loopTaking]) _ :=
    keyLoop.append (means_single valueLoop)
  refine ⟨_, means_before rfl rfl (straight_skipAny _ length) both, ?_⟩
  intro trace c d reads agree
  cases reads with
  | @map _ _ _ _ _ e f _ header keys values before count same allKeys allValues =>
    have inner : Agree plan.length (marksAll ctx.mapKeys keys ++ marksAll ctx.mapValues values) :=
      fun mark mem => agree mark (List.mem_cons_of_mem _ mem)
    have keysLooped := steps_loop (keysRun.rounds allKeys inner.append.1)
    have valuesLooped := steps_loop (valuesRun.rounds allValues inner.append.2)
    rw [same] at valuesLooped
    have limits : Steps [.dup, .push 0] e [(keys.length : Int)] e
        [0, (keys.length : Int), keys.length] [] := fun _ _ => rfl
    have rest : Steps [.push 0] f [(keys.length : Int)] f [0, (keys.length : Int)] [] :=
      fun _ _ => rfl
    have loops := (limits.append (keysLooped.below [(keys.length : Int)])).append
      (rest.append valuesLooped)
    rw [← (agree _ List.mem_cons_self : header = plan.length _), List.flatMap_append,
      List.append_assoc]
    exact (steps_mapHeader before).append ((steps_length (ctx.path, "") count).append loops)

/-- the code of the parts of an object, one after the other -/
theorem decodes_parts {ctx : Context} {parts : List Part}
    (one : ∀ part ∈ parts, plan.Decodes part.type (part.context ctx)) :
    ∃ commands, Means (Node.codeAll (parts.map (plan.partNode ctx))) commands ∧
      ∀ (traces : List Trace) (c d : Cursor), ReadsParts plan.registry true ctx parts c traces d →
        Agree plan.length (marksParts ctx parts traces) →
          Steps commands c [] d [] (writesParts ctx parts traces) := by
  induction parts with
  | nil =>
    refine ⟨[], means_empty, fun traces c d reads _ => ?_⟩
    cases reads
    exact steps_nil c []
  | cons part parts ih =>
    obtain ⟨first, firstMeans, firstRuns⟩ := one part List.mem_cons_self part.field
    obtain ⟨rest, restMeans, restRuns⟩ := ih fun other mem => one other (List.mem_cons_of_mem _ mem)
    have wrapped : Means (plan.partNode ctx part).code first := by
      cases part with
      | base name =>
        have pre : (Contribution.base name (ctx.inBase name)).pre = Contribution.code [] := rfl
        exact means_before pre rfl straight_nil (means_single firstMeans)
      | member own => exact firstMeans
    refine ⟨first ++ rest, wrapped.append restMeans, fun traces c d reads agree => ?_⟩
    cases reads with
    | cons here there =>
      obtain ⟨agreeHere, agreeThere⟩ := agree.append
      exact (firstRuns _ _ _ here agreeHere).append (restRuns _ _ _ there agreeThere)

theorem decodes_named (regular : plan.registry.Regular) {name : String} {outer : Context}
    (one : ∀ part ∈ plan.registry.partsIn outer.breadcrumbs name,
      plan.Decodes part.type (part.context (outer.inClass name))) :
    plan.Decodes (.named name) outer := by
  intro field
  obtain ⟨commands, means, runs⟩ := decodes_parts one
  rw [node_named]
  let skipped := plan.length (.dispatch ((outer.inClass name).label name "dispatch"))
  have none : Contribution.code [] = [] := rfl
  have record : Means (Node.mk (Contribution.record name (outer.inClass name)) _).code _ :=
    means_before none.symm rfl straight_nil means
  have start : Means (Node.mk (Contribution.start name (outer.inClass name)) [_]).code _ :=
    means_before none.symm rfl straight_nil (means_single record)
  have header : (Contribution.dispatch name skipped field (outer.inClass name)).pre =
      Contribution.code [.skip skipped] := rfl
  refine ⟨_, means_before header rfl (.skip skipped straight_nil) (means_single start), ?_⟩
  intro trace c d reads agree
  cases reads with
  | @object _ _ _ e _ header latest layout parts outside known takes chosen all =>
    have same : layout = latest := chosen.trans (regular.chosen known header.version)
    subst same
    rw [Registry.partsIn_eq (outside rfl) known] at runs
    have inner : Agree plan.length (marksParts (outer.inClass name) layout.parts parts) :=
      fun mark mem => agree mark (List.mem_cons_of_mem _ mem)
    have moved := steps_skip (Scan.forward_versionHeader takes).skip
    rw [show skipped = _ from (agree _ List.mem_cons_self).symm]
    exact moved.append (runs _ _ _ all inner)

/-- **The code of a type reads what the reader reads.** -/
theorem decodes (regular : plan.registry.Regular) (type : StreamType) (ctx : Context) :
    plan.Decodes type ctx := by
  induction type, ctx using plan.registry.walk with
  | primitive p ctx => exact plan.decodes_primitive p ctx
  | text kind ctx => exact plan.decodes_text kind ctx
  | object ctx => exact plan.decodes_object ctx
  | datime ctx => exact plan.decodes_datime ctx
  | time ctx => exact plan.decodes_time ctx
  | ref ctx => exact plan.decodes_ref ctx
  | refArray ctx => exact plan.decodes_refArray ctx
  | vector element ctx one => exact decodes_vector one
  | array element count ctx one => exact decodes_array count one
  | map key value ctx keys values => exact decodes_map keys values
  | named name ctx parts => exact decodes_named regular parts

end Plan

end Baskets
