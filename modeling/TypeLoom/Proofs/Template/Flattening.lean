/-
**Nodes and the segments that they are written as.**

A control structure is written as its opening action, its body, an else action and the else part when
there is one, and an end action. Reading takes the segments one by one and keeps the structures that
are open on a stack.

* `foldlM_step_flattened` — the segments of some nodes leave the stack as it was, with the nodes put
  into the innermost structure. So nodes are read back from whatever they are written as.
* `Building.Sound.step` — the nodes that a run of the reader has built are well-formed, whatever the
  segments.
* `nodes_flattened` — both together: reading inverts writing, and what is read is written and read
  again as the same nodes. A chain of `else if` or `else with` is thus read as the nested structures
  that it abbreviates.
-/

import TypeLoom.Proofs.Template.Printing
import TypeLoom.Template.Node

namespace TypeLoom.Template

/-! ### Written nodes -/

/-- The word that opens a control structure. -/
def Control.word : Control → String
  | .choose => "if"
  | .iterate => "range"
  | .focus => "with"

/-- The words that mean something at the start of an action. -/
def reserved : List String :=
  ["end", "else", "if", "range", "with"] ++ Building.unsupported

/-- The items start with a reserved word. -/
def startsReserved : List Item → Bool
  | .ident word :: _ => reserved.contains word
  | _ => false

mutual

/-- All pipelines in a node are well-formed, no plain action starts with a reserved word, and no
`range` assigns. -/
def Node.wellFormed : Node → Bool
  | .text _ => true
  | .action _ pipeline => pipeline.wellFormed && !startsReserved pipeline.items
  | .branch control _ pipeline body otherwise =>
    pipeline.wellFormed && !(control == .iterate && pipeline.assign) &&
      Node.wellFormedAll body && Node.wellFormedAll otherwise

/-- All nodes are well-formed. -/
def Node.wellFormedAll : List Node → Bool
  | [] => true
  | node :: rest => node.wellFormed && Node.wellFormedAll rest

end

/-- The segments that nodes are written as. The lines of `else` and `end` are in no node, so they can
be any. -/
inductive Flattened : List Node → List Segment → Prop
  | nil : Flattened [] []
  | text {content : String} {nodes : List Node} {segments : List Segment} :
      Flattened nodes segments → Flattened (.text content :: nodes) (.text content :: segments)
  | action {line : Nat} {pipeline : Pipeline} {nodes : List Node} {segments : List Segment} :
      Flattened nodes segments →
        Flattened (.action line pipeline :: nodes) (.action pipeline.items line :: segments)
  | branch {control : Control} {line : Nat} {pipeline : Pipeline} {body nodes : List Node}
      {inner segments : List Segment} (endLine : Nat) :
      Flattened body inner → Flattened nodes segments →
        Flattened (.branch control line pipeline body [] :: nodes)
          (.action (.ident control.word :: pipeline.items) line ::
            (inner ++ .action [.ident "end"] endLine :: segments))
  | branchElse {control : Control} {line : Nat} {pipeline : Pipeline}
      {body otherwise nodes : List Node} {inner other segments : List Segment}
      (elseLine endLine : Nat) : otherwise ≠ [] →
      Flattened body inner → Flattened otherwise other → Flattened nodes segments →
        Flattened (.branch control line pipeline body otherwise :: nodes)
          (.action (.ident control.word :: pipeline.items) line ::
            (inner ++ .action [.ident "else"] elseLine ::
              (other ++ .action [.ident "end"] endLine :: segments)))

mutual

/-- The segments of a node, with `else` and `end` on the line of the structure that they belong to. -/
def Node.flatten : Node → List Segment
  | .text content => [.text content]
  | .action line pipeline => [.action pipeline.items line]
  | .branch control line pipeline body otherwise =>
    .action (.ident control.word :: pipeline.items) line ::
      (Node.flattenAll body ++
        (if otherwise.isEmpty then [] else
          .action [.ident "else"] line :: Node.flattenAll otherwise) ++
        [.action [.ident "end"] line])

/-- The segments of nodes, one node after the other. -/
def Node.flattenAll : List Node → List Segment
  | [] => []
  | node :: rest => node.flatten ++ Node.flattenAll rest

end

theorem flattened_flattenAll : ∀ nodes : List Node, Flattened nodes (Node.flattenAll nodes)
  | [] => .nil
  | .text _ :: rest => .text (flattened_flattenAll rest)
  | .action _ _ :: rest => .action (flattened_flattenAll rest)
  | .branch control line pipeline body [] :: rest => by
    have short : Flattened (.branch control line pipeline body [] :: rest) _ :=
      .branch line (flattened_flattenAll body) (flattened_flattenAll rest)
    simpa [Node.flattenAll, Node.flatten] using short
  | .branch control line pipeline body (first :: more) :: rest => by
    have long : Flattened (.branch control line pipeline body (first :: more) :: rest) _ :=
      .branchElse line line (List.cons_ne_nil first more) (flattened_flattenAll body)
        (flattened_flattenAll (first :: more)) (flattened_flattenAll rest)
    simpa [Node.flattenAll, Node.flatten] using long

/-! ### Reading what was written -/

namespace Building

/-- Nodes put into the innermost structure. -/
def pushAll (b : Building) (nodes : List Node) : Building :=
  nodes.foldl push b

end Building

/-- Nodes put into the part of a structure that is being read. -/
theorem foldl_push_body {branch : OpenBranch} (early : branch.elseLine = none) (nodes : List Node) :
    nodes.foldl OpenBranch.push branch = { branch with body := branch.body ++ nodes } := by
  induction nodes generalizing branch with
  | nil => simp
  | cons node rest ih =>
    have one : branch.push node = { branch with body := branch.body ++ [node] } := by
      simp [OpenBranch.push, early]
    have later : rest.foldl OpenBranch.push { branch with body := branch.body ++ [node] } =
        { branch with body := branch.body ++ [node] ++ rest } := ih early
    rw [List.foldl_cons, one, later]
    simp

theorem foldl_push_otherwise {branch : OpenBranch} (late : branch.elseLine.isSome = true)
    (nodes : List Node) :
    nodes.foldl OpenBranch.push branch = { branch with otherwise := branch.otherwise ++ nodes } := by
  induction nodes generalizing branch with
  | nil => simp
  | cons node rest ih =>
    have one : branch.push node = { branch with otherwise := branch.otherwise ++ [node] } := by
      simp [OpenBranch.push, late]
    have later : rest.foldl OpenBranch.push { branch with otherwise := branch.otherwise ++ [node] } =
        { branch with otherwise := branch.otherwise ++ [node] ++ rest } := ih late
    rw [List.foldl_cons, one, later]
    simp

theorem pushAll_opened (built : List Node) (branch : OpenBranch) (outer : List OpenBranch)
    (nodes : List Node) :
    Building.pushAll ⟨built, branch :: outer⟩ nodes =
      ⟨built, nodes.foldl OpenBranch.push branch :: outer⟩ := by
  induction nodes generalizing branch with
  | nil => rfl
  | cons node rest ih => exact ih _

theorem pushAll_closed (built nodes : List Node) :
    Building.pushAll ⟨built, []⟩ nodes = ⟨built ++ nodes, []⟩ := by
  induction nodes generalizing built with
  | nil => simp [Building.pushAll]
  | cons node rest ih =>
    show Building.pushAll ⟨built ++ [node], []⟩ rest = _
    rw [ih]
    simp

theorem step_opening (b : Building) (control : Control) (items : List Item) (line : Nat) :
    b.step (.action (.ident control.word :: items) line) = b.openBranch control line items false := by
  cases control <;> simp [Building.step, Control.word, Control.ofWord?, Building.unsupported]

theorem step_else (b : Building) (line : Nat) :
    b.step (.action [.ident "else"] line) = b.elseBranch line [] := by
  simp [Building.step]

theorem step_end (b : Building) (line : Nat) :
    b.step (.action [.ident "end"] line) = b.endBranch line [] := by
  simp [Building.step]

theorem step_plain {b : Building} {items : List Item} (some : items ≠ [])
    (plain : startsReserved items = false) (line : Nat) :
    b.step (.action items line) = b.plainAction line items := by
  cases items with
  | nil => exact absurd rfl some
  | cons item rest =>
    cases item with
    | ident word =>
      simp [startsReserved, reserved, Building.unsupported] at plain
      simp [Building.step, Control.ofWord?, Building.unsupported, plain]
    | _ => rfl

/-- A closed structure that is not chained is a node of the structure around it. -/
theorem settle_eq_push (built : List Node) (node : Node) (opened : List OpenBranch) :
    Building.settle built node false opened = Building.push ⟨built, opened⟩ node := by
  cases opened <;> rfl

theorem pipeline_items_ne_nil {pipeline : Pipeline} (formed : pipeline.wellFormed = true) :
    pipeline.items ≠ [] := by
  obtain ⟨decl, assign, commands⟩ := pipeline
  cases commands with
  | nil => simp [Pipeline.wellFormed] at formed
  | cons first rest =>
    simp only [Pipeline.wellFormed, Command.wellFormedAll, Bool.and_eq_true] at formed
    obtain ⟨tail, same, -⟩ := exists_joined_tail first.items (Command.itemsEach rest)
    rw [Pipeline.items, Command.itemsEach, same]
    simp [command_items_ne_nil formed.2.1]

theorem openBranch_items {control : Control} {pipeline : Pipeline}
    (formed : pipeline.wellFormed = true)
    (declares : (control == .iterate && pipeline.assign) = false) (b : Building) (line : Nat)
    (chained : Bool) :
    b.openBranch control line pipeline.items chained =
      .ok { b with opened := { control, line, pipeline, chained } :: b.opened } := by
  unfold Building.openBranch
  rw [pipeline_items formed]
  simp [declares, bind, Except.bind, pure, Except.pure]

theorem foldlM_cons_ok {b b' : Building} {segment : Segment} {rest : List Segment}
    (one : b.step segment = .ok b') :
    (segment :: rest).foldlM Building.step b = rest.foldlM Building.step b' := by
  rw [List.foldlM_cons, one]
  rfl

/-- **The segments of nodes put the nodes into the innermost structure.** -/
theorem foldlM_step_flattened {nodes : List Node} {segments : List Segment}
    (flat : Flattened nodes segments) (formed : Node.wellFormedAll nodes = true) (b : Building)
    (later : List Segment) :
    (segments ++ later).foldlM Building.step b = later.foldlM Building.step (b.pushAll nodes) := by
  induction flat generalizing b later with
  | nil => rfl
  | text _ ih =>
    simp only [Node.wellFormedAll, Node.wellFormed, Bool.true_and] at formed
    rw [List.cons_append, foldlM_cons_ok rfl, ih formed]
    rfl
  | @action line pipeline nodes segments _ ih =>
    simp only [Node.wellFormedAll, Node.wellFormed, Bool.and_eq_true, Bool.not_eq_true'] at formed
    obtain ⟨⟨piped, plain⟩, others⟩ := formed
    have one : b.step (.action pipeline.items line) = .ok (b.push (.action line pipeline)) := by
      rw [step_plain (pipeline_items_ne_nil piped) plain, Building.plainAction, pipeline_items piped]
      rfl
    rw [List.cons_append, foldlM_cons_ok one, ih others]
    rfl
  | @branch control line pipeline body nodes inner segments endLine _ _ ihBody ih =>
    simp only [Node.wellFormedAll, Node.wellFormed, Bool.and_eq_true, Bool.not_eq_true'] at formed
    obtain ⟨⟨⟨⟨piped, declares⟩, formedBody⟩, -⟩, others⟩ := formed
    have opens := (step_opening b control pipeline.items line).trans
      (openBranch_items piped declares b line false)
    have ends : Building.step ⟨b.nodes,
        { control, line, pipeline, chained := false, body := body } :: b.opened⟩
        (.action [.ident "end"] endLine) = .ok (b.push (.branch control line pipeline body [])) := by
      rw [step_end, ← settle_eq_push]
      rfl
    rw [List.cons_append, List.append_assoc, foldlM_cons_ok opens, ihBody formedBody, pushAll_opened,
      foldl_push_body rfl, List.cons_append, List.nil_append, foldlM_cons_ok ends, ih others]
    rfl
  | @branchElse control line pipeline body otherwise nodes inner other segments elseLine endLine _ _ _ _
      ihBody ihOtherwise ih =>
    simp only [Node.wellFormedAll, Node.wellFormed, Bool.and_eq_true, Bool.not_eq_true'] at formed
    obtain ⟨⟨⟨⟨piped, declares⟩, formedBody⟩, formedOtherwise⟩, others⟩ := formed
    have opens := (step_opening b control pipeline.items line).trans
      (openBranch_items piped declares b line false)
    have turns : Building.step ⟨b.nodes,
        { control, line, pipeline, chained := false, body := body } :: b.opened⟩
        (.action [.ident "else"] elseLine) = .ok ⟨b.nodes,
        { control, line, pipeline, chained := false, body := body, elseLine := some elseLine } ::
          b.opened⟩ := by
      rw [step_else]
      rfl
    have ends : Building.step ⟨b.nodes,
        { control, line, pipeline, chained := false, body := body, elseLine := some elseLine,
          otherwise := otherwise } :: b.opened⟩
        (.action [.ident "end"] endLine) =
          .ok (b.push (.branch control line pipeline body otherwise)) := by
      rw [step_end, ← settle_eq_push]
      rfl
    rw [List.cons_append, List.append_assoc, foldlM_cons_ok opens, ihBody formedBody, pushAll_opened,
      foldl_push_body rfl, List.cons_append, List.nil_append, foldlM_cons_ok turns,
      List.append_assoc, ihOtherwise formedOtherwise, pushAll_opened, foldl_push_otherwise rfl,
      List.cons_append, List.nil_append, foldlM_cons_ok ends, ih others]
    rfl

/-- Well-formed nodes are read back from the segments that they are written as. -/
theorem nodes_of_flattened {ns : List Node} {segments : List Segment}
    (flat : Flattened ns segments) (formed : Node.wellFormedAll ns = true) :
    nodes segments = .ok ns := by
  have run := foldlM_step_flattened flat formed {} []
  rw [List.append_nil, pushAll_closed] at run
  unfold nodes
  rw [run]
  rfl

/-! ### What is read is well-formed -/

@[simp] theorem wellFormedAll_append (first second : List Node) :
    Node.wellFormedAll (first ++ second) =
      (Node.wellFormedAll first && Node.wellFormedAll second) := by
  induction first with
  | nil => rfl
  | cons node rest ih => rw [List.cons_append, Node.wellFormedAll, ih, Node.wellFormedAll, Bool.and_assoc]

@[simp] theorem wellFormedAll_singleton (node : Node) :
    Node.wellFormedAll [node] = node.wellFormed := by
  simp [Node.wellFormedAll]

/-- What an open structure holds is well-formed. -/
structure OpenBranch.Sound (branch : OpenBranch) : Prop where
  piped : branch.pipeline.wellFormed = true
  declares : (branch.control == .iterate && branch.pipeline.assign) = false
  body : Node.wellFormedAll branch.body = true
  otherwise : Node.wellFormedAll branch.otherwise = true

/-- What was built is well-formed. -/
structure Building.Sound (b : Building) : Prop where
  nodes : Node.wellFormedAll b.nodes = true
  opened : ∀ branch ∈ b.opened, branch.Sound

namespace OpenBranch.Sound

variable {branch : OpenBranch}

theorem close (sound : branch.Sound) : branch.close.wellFormed = true := by
  simp [OpenBranch.close, Node.wellFormed, sound.piped, sound.declares, sound.body, sound.otherwise]

theorem push (sound : branch.Sound) {node : Node} (formed : node.wellFormed = true) :
    (branch.push node).Sound := by
  unfold OpenBranch.push
  split
  · exact { sound with otherwise := by simp [sound.otherwise, formed] }
  · exact { sound with body := by simp [sound.body, formed] }

end OpenBranch.Sound

namespace Building.Sound

variable {b b' : Building} {line : Nat} {items : List Item}

theorem push (sound : b.Sound) {node : Node} (formed : node.wellFormed = true) :
    (b.push node).Sound := by
  obtain ⟨built, opened⟩ := b
  cases opened with
  | nil => exact ⟨by simp [Building.push, sound.nodes, formed], by simp [Building.push]⟩
  | cons branch outer =>
    obtain ⟨first, others⟩ := List.forall_mem_cons.mp sound.opened
    exact ⟨sound.nodes, List.forall_mem_cons.mpr ⟨first.push formed, others⟩⟩

theorem settle {built : List Node} (nodes : Node.wellFormedAll built = true) {node : Node}
    (formed : node.wellFormed = true) {opened : List OpenBranch}
    (each : ∀ branch ∈ opened, branch.Sound) (chained : Bool) :
    (Building.settle built node chained opened).Sound := by
  induction opened generalizing node chained with
  | nil => exact ⟨by simp [Building.settle, nodes, formed], by simp [Building.settle]⟩
  | cons branch outer ih =>
    obtain ⟨first, others⟩ := List.forall_mem_cons.mp each
    unfold Building.settle
    split
    · have closed : OpenBranch.Sound { branch with otherwise := [node] } :=
        ⟨first.piped, first.declares, first.body, by simpa using formed⟩
      exact ih closed.close others _
    · exact ⟨nodes, List.forall_mem_cons.mpr ⟨first.push formed, others⟩⟩

theorem openBranch (sound : b.Sound) {control : Control} {chained : Bool}
    (opens : b.openBranch control line items chained = .ok b') : b'.Sound := by
  obtain ⟨pipeline, read, rest⟩ := except_bind_eq_ok.mp opens
  cases declares : control == .iterate && pipeline.assign with
  | true =>
    rw [declares, if_pos rfl] at rest
    cases rest
  | false =>
    rw [declares, if_neg Bool.false_ne_true] at rest
    cases rest
    exact ⟨sound.nodes, List.forall_mem_cons.mpr
      ⟨⟨(printed_of_pipeline read).1, declares, rfl, rfl⟩, sound.opened⟩⟩

theorem endBranch (sound : b.Sound) (ends : b.endBranch line items = .ok b') : b'.Sound := by
  obtain ⟨built, opened⟩ := b
  unfold Building.endBranch at ends
  split at ends
  · cases ends
  · cases opened with
    | nil => cases ends
    | cons branch outer =>
      cases ends
      obtain ⟨first, others⟩ := List.forall_mem_cons.mp sound.opened
      exact settle sound.nodes first.close others _

theorem elseBranch (sound : b.Sound) (turns : b.elseBranch line items = .ok b') : b'.Sound := by
  obtain ⟨built, opened⟩ := b
  unfold Building.elseBranch at turns
  cases opened with
  | nil => cases turns
  | cons branch outer =>
    obtain ⟨first, others⟩ := List.forall_mem_cons.mp sound.opened
    simp only at turns
    split at turns
    · cases turns
    · split at turns
      · cases turns
        exact ⟨sound.nodes, List.forall_mem_cons.mpr
          ⟨⟨first.piped, first.declares, first.body, first.otherwise⟩, others⟩⟩
      · split at turns
        · exact sound.openBranch turns
        · cases turns
      · cases turns

theorem plainAction (sound : b.Sound) (plain : startsReserved items = false)
    (acts : b.plainAction line items = .ok b') : b'.Sound := by
  obtain ⟨pipeline, read, same⟩ := except_bind_eq_ok.mp acts
  cases same
  obtain ⟨formed, rfl⟩ := printed_of_pipeline read
  exact sound.push (by simp [Node.wellFormed, formed, plain])

/-- **One more segment keeps what was built well-formed.** -/
theorem step (sound : b.Sound) {segment : Segment} (next : b.step segment = .ok b') : b'.Sound := by
  unfold Building.step at next
  split at next
  · cases next
    exact sound.push rfl
  · cases next
    exact sound
  · rename_i word rest line
    by_cases isEnd : (word == "end") = true
    · rw [if_pos isEnd] at next
      exact sound.endBranch next
    by_cases isElse : (word == "else") = true
    · rw [if_neg isEnd, if_pos isElse] at next
      exact sound.elseBranch next
    by_cases isUnsupported : Building.unsupported.contains word = true
    · rw [if_neg isEnd, if_neg isElse, if_pos isUnsupported] at next
      cases next
    rw [if_neg isEnd, if_neg isElse, if_neg isUnsupported] at next
    split at next
    · exact sound.openBranch next
    · rename_i noControl
      have words : word ≠ "if" ∧ word ≠ "range" ∧ word ≠ "with" := by
        refine ⟨?_, ?_, ?_⟩ <;>
          · rintro rfl
            simp [Control.ofWord?] at noControl
      simp only [beq_iff_eq, List.contains_eq_mem, decide_eq_true_eq] at isEnd isElse isUnsupported
      refine sound.plainAction ?_ next
      simp [startsReserved, reserved, isEnd, isElse, isUnsupported, words]
  · rename_i items line notEmpty notWord
    refine sound.plainAction ?_ next
    cases items with
    | nil => rfl
    | cons item rest =>
      cases item with
      | ident word => exact absurd rfl (notWord word rest)
      | _ => rfl

end Building.Sound

/-- What is read is well-formed. -/
theorem wellFormedAll_of_nodes {segments : List Segment} {ns : List Node}
    (read : nodes segments = .ok ns) : Node.wellFormedAll ns = true := by
  obtain ⟨b, ran, finished⟩ := except_bind_eq_ok.mp read
  have start : Building.Sound {} := ⟨rfl, fun _ member => by cases member⟩
  have sound : b.Sound := foldlM_induction start (fun sound next => sound.step next) ran
  unfold Building.finish at finished
  split at finished
  · cases finished
    exact sound.nodes
  · cases finished

/-- **Reading segments inverts writing them.** Well-formed nodes are read back from every list of
segments that they are written as. And what is read from any segments, with chains of `else if` and
`else with` or without, is well-formed and read back from the segments that it is written as. -/
theorem nodes_flattened :
    (∀ ns, Node.wellFormedAll ns = true → nodes (Node.flattenAll ns) = .ok ns ∧
      ∀ segments, Flattened ns segments → nodes segments = .ok ns) ∧
    ∀ segments ns, nodes segments = .ok ns → Node.wellFormedAll ns = true ∧
      nodes (Node.flattenAll ns) = .ok ns ∧
        ∀ written, Flattened ns written → nodes written = .ok ns := by
  have inverts : ∀ ns, Node.wellFormedAll ns = true → nodes (Node.flattenAll ns) = .ok ns ∧
      ∀ segments, Flattened ns segments → nodes segments = .ok ns :=
    fun ns formed => ⟨nodes_of_flattened (flattened_flattenAll ns) formed,
      fun _ flat => nodes_of_flattened flat formed⟩
  refine ⟨inverts, fun segments ns read => ?_⟩
  have formed := wellFormedAll_of_nodes read
  exact ⟨formed, inverts ns formed⟩

/-- A chain of `else if` with an `else`, and the nested structures that it abbreviates. -/
theorem nodes_flattened_chain :
    ∃ ns, nodes [.action [.ident "if", .dot ["A"]] 1, .text "a",
        .action [.ident "else", .ident "if", .dot ["B"]] 2, .text "b",
        .action [.ident "else"] 3, .text "c", .action [.ident "end"] 4] = .ok ns ∧
      Node.wellFormedAll ns = true ∧
      nodes [.action [.ident "if", .dot ["A"]] 1, .text "a",
        .action [.ident "else"] 2, .action [.ident "if", .dot ["B"]] 2, .text "b",
        .action [.ident "else"] 3, .text "c",
        .action [.ident "end"] 4, .action [.ident "end"] 4] = .ok ns := by
  have read : nodes [.action [.ident "if", .dot ["A"]] 1, .text "a",
      .action [.ident "else", .ident "if", .dot ["B"]] 2, .text "b",
      .action [.ident "else"] 3, .text "c", .action [.ident "end"] 4] =
        .ok [.branch .choose 1 ⟨[], false, [⟨[.dot ["A"]]⟩]⟩ [.text "a"]
          [.branch .choose 2 ⟨[], false, [⟨[.dot ["B"]]⟩]⟩ [.text "b"] [.text "c"]]] := rfl
  obtain ⟨formed, -, again⟩ := nodes_flattened.2 _ _ read
  refine ⟨_, read, formed, again _ ?_⟩
  have inner : Flattened [.branch .choose 2 ⟨[], false, [⟨[.dot ["B"]]⟩]⟩ [.text "b"] [.text "c"]] _ :=
    .branchElse 3 4 (List.cons_ne_nil _ _) (.text .nil) (.text .nil) .nil
  exact .branchElse 2 4 (List.cons_ne_nil _ _) (.text .nil) inner .nil

end TypeLoom.Template
