/-
**Failures that an expansion does not have.**

An expansion fails with no failed edit, and with an unknown placeholder only when a text that it
evaluates mentions results of placeholders other than by the actions that placeholders bring along.

* `Permitted` — the work that templates can ask for: what it evaluates mentions results only if the
  source does.
* `expected_runWithin` — such work fails as expected, however deep it nests: by recursion on the levels
  that are left, each of which answers its templates with the work of the next (`answers_hostOf`).
* `failsWith_asking` — an action that a placeholder brings along asks for a result that is there.
-/

import TypeLoom.Proofs.Expansion.Failing
import TypeLoom.Proofs.Expansion.Markers
import TypeLoom.Proofs.Expansion.Preparing

namespace TypeLoom

namespace Expansion

open Template

variable {α β : Type} {heard : Prop} {plan : Plan}

/-- The failure is no failed edit and no method without a template, and it is an unknown placeholder
only if something was heard. -/
structure Expected (heard : Prop) (failure : Failure) : Prop where
  noEdit : ∀ e, failure ≠ .expansion (.tree e)
  unknown : ∀ name, failure = .expansion (.unknownPlaceholder name) → heard
  noOrphan : ∀ method receiver, failure ≠ .expansion (.orphanTemplateMethod method receiver)

theorem expected_template (e : TemplateError) : Expected heard (.template e) :=
  ⟨fun _ => nofun, fun _ => nofun, fun _ _ => nofun⟩

theorem expected_source (e : SyntaxError) : Expected heard (.source e) :=
  ⟨fun _ => nofun, fun _ => nofun, fun _ _ => nofun⟩

theorem expected_recursionLimit (name : String) (limit : Nat) :
    Expected heard (.expansion (.recursionLimit name limit)) :=
  ⟨fun _ => nofun, fun _ => nofun, fun _ _ => nofun⟩

theorem expected_missingStruct (name : String) :
    Expected heard (.expansion (.missingStruct name)) :=
  ⟨fun _ => nofun, fun _ => nofun, fun _ _ => nofun⟩

/-! ### Members -/

section Members

variable {known : Failure → Prop} {run : Task → Expanding (Value Subject)}

theorem failsWith_newObject (subject : Subject) : FailsWith known (newObject subject) :=
  .of_ok fun _ => ⟨_, _, rfl⟩

theorem failsWith_newObjects (subjects : List Subject) : FailsWith known (newObjects subjects) := by
  have each : FailsWith known (subjects.mapM newObject) := by
    induction subjects with
    | nil => exact .pure []
    | cons subject rest ih =>
      rw [List.mapM_cons]
      exact .bind (failsWith_newObject subject) fun _ => .bind ih fun _ => .pure _
  exact .bind each fun _ => .pure _

theorem failsWith_expectArgs (name : String) (args : List (Value Subject)) (count : Nat) :
    FailsWith (CallError.OneOf known) (expectArgs name args count : Reply Unit) :=
  .ite (.pure _) (.throw trivial)

/-- The members of a plain subject. -/
theorem failsWith_structMember (snapshot : StructSnapshot) (name : String) :
    FailsWith (CallError.OneOf known) (snapshot.member name) := by
  have objects : ∀ subjects, FailsWith (CallError.OneOf known)
      (do return some (← newObjects subjects) : Reply (Option (Value Subject))) := fun subjects =>
    .bind (failsWith_reply (failsWith_newObjects subjects)) fun _ => .pure _
  unfold StructSnapshot.member
  split
  all_goals first
    | exact .pure _
    | exact objects _

theorem failsWith_funcMember (snapshot : FuncSnapshot) (name : String) :
    FailsWith (CallError.OneOf known) (snapshot.member name) := by
  unfold FuncSnapshot.member
  split
  all_goals first
    | exact .pure _
    | exact .bind (failsWith_reply (failsWith_newObjects _)) fun _ => .pure _

/-- Asking a source for the result of a placeholder fails as the result does. -/
theorem failsWith_sourceMember {result : String → Expanding String} {name : String}
    {args : List (Value Subject)}
    (asked : ∀ placeholder, name = askedName → args = [.str placeholder] →
      FailsWith known (result placeholder)) :
    FailsWith (CallError.OneOf known) (sourceMember plan result name args) := by
  unfold sourceMember
  split
  · rename_i same
    have same : name = askedName := beq_iff_eq.mp same
    match args with
    | [] => exact .bind (failsWith_expectArgs _ _ _) fun _ => .throw trivial
    | [.str placeholder] =>
      exact .bind (failsWith_expectArgs _ _ _) fun _ =>
        .bind (failsWith_reply (asked placeholder same rfl)) fun _ => .pure _
    | [.nil] | [.bool _] | [.int _] | [.list _] | [.object _ _] =>
      exact .bind (failsWith_expectArgs _ _ _) fun _ => .throw trivial
    | first :: second :: rest =>
      intro s e s' failed
      cases failed
      trivial
  · exact .pure _

theorem failsWith_member {result : String → Expanding String} {name : String}
    {args : List (Value Subject)} (subject : Subject)
    (asked : ∀ placeholder, name = askedName → args = [.str placeholder] →
      FailsWith known (result placeholder)) :
    FailsWith (CallError.OneOf known) (subject.member plan result name args) := by
  unfold Subject.member
  split
  · exact failsWith_structMember _ _
  · exact failsWith_funcMember _ _
  · exact .pure _
  · unfold mutationMember
    split
    · exact .pure _
    · exact .bind (failsWith_expectArgs _ _ _) fun _ => .pure _
    · exact failsWith_structMember _ _
  · exact failsWith_sourceMember asked
  · exact failsWith_sourceMember asked
  · refine .bind (failsWith_structMember _ _) fun found => ?_
    split
    · exact .pure _
    · exact failsWith_sourceMember asked

end Members

/-! ### Hosts -/

/-- Work that a template can ask for: what it evaluates mentions results only if something was
heard. -/
def Task.Permitted (heard : Prop) : Task → Prop
  | .mutate _ text _ _ => Mentions text → heard
  | .help _ text _ => Mentions text → heard
  | .resolve _ placeholder => ∀ text, placeholder.evaluated? = some text → Mentions text → heard

/-- What a plan evaluates mentions results only if something was heard. -/
structure Plan.Quiet (heard : Prop) (plan : Plan) : Prop where
  mutators : ∀ name text, plan.mutators.get? name = some text → Mentions text → heard
  helpers : ∀ name text, plan.helpers.get? name = some text → Mentions text → heard
  placeholders : ∀ name meaning, plan.placeholders.get? name = some meaning →
    ∀ text, meaning.evaluated? = some text → Mentions text → heard

/-- The name can be asked for: it is not that of the results, unless something was heard. -/
def Allowed (heard : Prop) (name : String) : Prop :=
  heard ∨ name ≠ askedName

section Hosts

variable {run : Task → Expanding (Value Subject)} (quiet : plan.Quiet heard)
  (runs : ∀ task : Task, task.Permitted heard → FailsWith (Expected heard) (run task))

include quiet runs

/-- The result of a placeholder that is there fails as expected. -/
theorem expected_resultOf {name : String} (listed : heard ∨ plan.placeholders.get? name ≠ none) :
    FailsWith (Expected heard) (resultOf plan run name) := by
  refine .bind .get fun s => ?_
  split
  · exact .pure _
  · split
    · rename_i missing
      refine .throw ⟨fun _ => nofun, fun _ _ => listed.resolve_right fun known => known missing,
        fun _ _ => nofun⟩
    · rename_i placeholder found
      exact .bind (runs _ (quiet.placeholders name placeholder found)) fun _ => .pure _

/-- **The host of an expansion** answers as expected what templates that mention no results ask. -/
theorem answers_hostOf : Answers (Allowed heard) (Expected heard) (hostOf plan run) := by
  have field : ∀ (subject : Subject) name args, Allowed heard name ∨ args = [] →
      FailsWith (CallError.OneOf (Expected heard)) ((hostOf plan run).field subject name args) := by
    intro subject name args may
    refine failsWith_member subject fun placeholder asked argument => expected_resultOf quiet runs ?_
    rcases may with (known | other) | none
    · exact Or.inl known
    · exact absurd asked other
    · rw [argument] at none
      cases none
  refine ⟨field, fun name f found args => ?_, expected_template⟩
  simp only [hostOf, functionOf] at found
  split at found
  · rename_i known
    cases found
    exact failsWith_reply (runs _ (quiet.helpers name _ known))
  · rename_i text _ known
    cases found
    unfold callMutator
    split
    · exact .throw trivial
    · split
      · exact failsWith_reply (runs _ (quiet.mutators name text known))
      · exact .throw trivial
  · obtain ⟨builtin, _, rfl⟩ := Option.map_eq_some_iff.mp found
    exact failsWith_apply expected_template (fun o name => field o name [] (Or.inr rfl)) builtin args

end Hosts

/-! ### Texts -/

theorem failsWith_ofOutcome {ε : Type} {known : Failure → Prop} {failure : ε → Failure}
    {outcome : Except ε α} {next : α → Expanding β} (reported : ∀ e, known (failure e))
    (goes : ∀ a, outcome = .ok a → FailsWith known (next a)) :
    FailsWith known (ofOutcome failure outcome >>= next) := by
  cases outcome with
  | ok a => exact goes a rfl
  | error e =>
    intro s _ _ failed
    cases failed
    exact reported e

/-- The pipeline of an action that a placeholder brings along asks for its result. -/
theorem failsWith_asking {known : Failure → Prop} {setting : Setting Subject State Failure}
    {pipeline : Pipeline} {placeholder : String} (reported : ∀ e, known (setting.host.report e))
    (answered : ∀ o, FailsWith (CallError.OneOf known)
      (setting.host.field o askedName [.str placeholder]))
    (formed : pipeline.wellFormed = true) (items : pipeline.items = asking placeholder) :
    Fails known setting pipeline := by
  have read := pipeline_items formed 0
  rw [items] at read
  obtain rfl : ⟨[], false, [⟨[.dot [askedName], .str placeholder]⟩]⟩ = pipeline := Except.ok.inj read
  intro dot line
  have asks : setting.pipelineValue dot line ⟨[], false, [⟨[.dot [askedName], .str placeholder]⟩]⟩ =
      setting.field line dot askedName [.str placeholder] := by
    funext s
    simp [Setting.pipelineValue, Setting.commandsValue, Setting.commandValue, Setting.argValues,
      Setting.argValue, Setting.fields]
  rw [asks]
  exact failsWith_field reported answered line dot

/-- A text that has an action which names the results mentions them. -/
theorem mentions_of_readIn {text : String} {items : List Item} (reads : ReadIn text.toList items)
    {item : Item} (member : item ∈ items) (names : askedName ∈ item.members) : Mentions text := by
  obtain ⟨before, body, parts, rest, whole, read, rfl⟩ := reads
  obtain ⟨front, back, rfl, -⟩ := readAction_names read item member askedName names
  exact ⟨before ++ (Segment.opening ++ (front ++ ['.'])), back, by simp [whole]⟩

/-- Writing out the delimiters of a declaration that was read does not bring the name in. -/
theorem mentions_of_setDelimiters {text : String} {origin : Origin} {reading : ParseSettings}
    {tree : Tree} {decl : NodeId} (parsed : parse text origin reading = .ok tree)
    (listed : decl ∈ tree.implements) (mentions : Mentions ((setDelimiters tree decl).text decl)) :
    Mentions text := by
  have forest := (shaped_of_parse parsed).forest
  have whole := intact_of_parse parsed
  have under := whole.under_of_waiting (waiting_implements forest) decl listed
  exact text_of_parse parsed ▸ (whole.setDelimiters decl).mentions forest under mentions

/-- Neither do the delimiters around the expression of a marker. -/
theorem mentions_of_marker {expr : String} (mentions : Mentions ("<:" ++ expr ++ ":>")) :
    Mentions expr := by
  have split : ("<:" ++ expr ++ ":>").toList = ['<'] ++ ':' :: (expr.toList ++ ':' :: ['>']) := by
    simp
  rw [Mentions, split] at mentions
  rcases spells_of_separated (by simp) mentions with front | behind
  · exact absurd front (not_spells_of_not_mem (by decide))
  rcases spells_of_separated (by simp) behind with own | back
  · exact own
  · exact absurd back (not_spells_of_not_mem (by decide))

section Evaluations

variable {host : Host Subject State Failure} (answers : Answers (Allowed heard) (Expected heard) host)
include answers

/-- Evaluating a text fails as expected when each of its actions does. -/
theorem expected_evaluateText_of_actions {name text : String} (dot : Value Subject)
    (actions : ∀ items, ReadIn text.toList items →
      (∀ item ∈ items, ∀ name ∈ item.members, Allowed heard name) ∨
        ∃ placeholder, items = asking placeholder ∧
          ∀ o, FailsWith (CallError.OneOf (Expected heard)) (host.field o askedName [.str placeholder])) :
    FailsWith (Expected heard) (evaluateText host name text dot) := by
  refine failsWith_ofOutcome expected_template fun script read => ?_
  unfold Script.read at read
  split at read
  · rename_i ns built
    cases read
    obtain ⟨found, cut, built⟩ := except_bind_eq_ok.mp built
    refine failsWith_execute answers.report (fun pipeline member => ?_) dot
    obtain ⟨items, line, written, formed, ends⟩ := pipelines_of_nodes built pipeline member
    have within : Within (Allowed heard) pipeline.items →
        Fails (Expected heard) ⟨host, name, text⟩ pipeline :=
      fun within dot line => failsWith_pipelineValue answers dot line pipeline within
    rcases actions items (readIn_of_segments cut written) with allowed | ⟨placeholder, rfl, answered⟩
    · exact within (Within.sublist allowed ends.subset)
    · rcases List.suffix_cons_iff.mp ends with whole | part
      · exact failsWith_asking answers.report answered formed whole
      · refine within fun item member => ?_
        obtain rfl := List.mem_singleton.mp (part.subset member)
        simp [Item.members]
  · cases read

theorem expected_evaluateText {name text : String} (dot : Value Subject)
    (silent : Mentions text → heard) :
    FailsWith (Expected heard) (evaluateText host name text dot) := by
  refine expected_evaluateText_of_actions answers dot fun items reads => Or.inl ?_
  intro item member named asks
  by_cases same : named = askedName
  · exact Or.inl (silent (mentions_of_readIn reads member (same ▸ asks)))
  · exact Or.inr same

end Evaluations

/-! ### Declarations that become structs -/

/-- **An implements declaration that was read can become a struct**: its template is in its place. -/
theorem runs_becomeStruct {source t : Tree} {origin : Origin} {decl : NodeId}
    (shaped : source.Shaped origin) (intact : Intact source t) (shape : source.SameShape t)
    (under : source.Under Tree.root decl) : ∃ t', becomeStruct decl t = .ok () t' := by
  let u := (t.setTokenValue decl .kwImplements "struct").retype decl .kwImplements .kwStruct
  have reshaped : source.SameShape u :=
    (shape.trans (.mapTokens t decl _)).trans (.mapTokens _ decl _)
  have ends : ∀ template : Option NodeId, templateOf t decl = template →
      ∃ t', template.forM Edit.remove u = .ok () t' := by
    rintro (_ | template) named
    · exact ⟨u, rfl⟩
    · have below : source.Under decl template := by
        unfold templateOf at named
        split at named
        · rename_i d kind
          refine intact.under_of_takes shaped under (by rw [kind]; rfl) ?_
          simp [kind, NodeKind.plain, NodeKind.targets, NodeKind.links, named]
        · cases named
      obtain ⟨p, parent⟩ := shaped.forest.linked.parent_of_under below
      rcases (reshaped.forest shaped.forest).linked.remove_cases template with
        ⟨free, _⟩ | ⟨_, _, _, t', _, ran, _⟩
      · rw [reshaped.parent, parent] at free
        cases free
      · exact ⟨t', ran⟩
  obtain ⟨t', ran⟩ := ends _ rfl
  exact ⟨t', bind_eq_ok.mpr ⟨t, t, rfl, bind_eq_ok.mpr ⟨⟨⟩, u, rfl, ran⟩⟩⟩

/-! ### Work -/

section Work

variable {host : Host Subject State Failure} (answers : Answers (Allowed heard) (Expected heard) host)
include answers

theorem expected_generate (settings : Settings) {name text : String} (origin : StructSnapshot)
    (args : List (Value Subject)) (silent : Mentions text → heard) :
    FailsWith (Expected heard) (generate settings host name text origin args) := by
  refine .bind (failsWith_newObject _) fun dot =>
    .bind (expected_evaluateText answers dot silent) fun out =>
      failsWith_ofOutcome expected_source fun tree _ => ?_
  split
  · exact .throw (expected_missingStruct _)
  · exact .bind (.modify _) fun _ => failsWith_newObject _

omit answers in
theorem expected_implementingText {tree t : Tree} {origin : Origin} {decl : NodeId}
    (shaped : tree.Shaped origin) (intact : Intact tree t) (shape : tree.SameShape t)
    (under : tree.Under Tree.root decl) (generated : List StructSnapshot) :
    FailsWith (Expected heard) (implementingText t decl generated) := by
  obtain ⟨t', ran⟩ := runs_becomeStruct shaped intact shape under
  unfold implementingText
  rw [ran]
  dsimp only
  split
  · exact .bind (.of_ok fun s => ⟨_, _, rfl⟩) fun _ => .pure _
  · exact .pure _

theorem expected_resolveImplements (settings : Settings) {name text : String}
    (silent : Mentions text → heard) :
    FailsWith (Expected heard) (resolveImplements settings host name text) := by
  refine failsWith_ofOutcome expected_source fun tree parsed => ?_
  split
  · exact .throw (expected_missingStruct _)
  · rename_i decl found
    have shaped := shaped_of_parse parsed
    have whole := intact_of_parse parsed
    have intact := whole.setDelimiters decl
    have listed := List.mem_of_mem_head? found
    have under := whole.under_of_waiting (waiting_implements shaped.forest) decl listed
    have told : Mentions ((setDelimiters tree decl).text decl) → heard := fun mentions =>
      silent (mentions_of_setDelimiters parsed listed mentions)
    refine .bind (failsWith_newObject _) fun dot =>
      .bind (failsWith_recording (expected_evaluateText answers dot told)) fun ⟨_, generated⟩ => ?_
    exact expected_implementingText shaped intact (reworded_setDelimiters tree decl).shape under generated

theorem expected_resolvePoireau {name holder expr : String} (pointer : Bool)
    (silent : Mentions expr → heard) :
    FailsWith (Expected heard) (resolvePoireau plan host name holder expr pointer) := by
  have told : Mentions ("<:" ++ expr ++ ":>") → heard := fun mentions =>
    silent (mentions_of_marker mentions)
  refine .bind (failsWith_newObject _) fun dot =>
    .bind (failsWith_recording (expected_evaluateText answers dot told)) fun answer => ?_
  dsimp only
  split
  · exact .throw (expected_missingStruct _)
  · exact .bind (.of_ok fun s => ⟨_, _, rfl⟩) fun _ => .bind (.modify _) fun _ => .pure _

theorem expected_perform {task : Task} (permitted : task.Permitted heard) :
    FailsWith (Expected heard) (perform plan host task) := by
  cases task with
  | mutate name text origin args => exact expected_generate answers _ origin args permitted
  | help name text args =>
    exact .bind (expected_evaluateText answers _ permitted) fun _ => .pure _
  | resolve name placeholder =>
    refine .bind ?_ fun _ => .bind (.modify _) fun _ => .pure _
    cases placeholder with
    | implements text => exact expected_resolveImplements answers _ (permitted text rfl)
    | poireau holder expr pointer => exact expected_resolvePoireau answers pointer (permitted expr rfl)
    | comment text => exact .pure _

end Work

/-- **Permitted work fails as expected, however deep it nests.** -/
theorem expected_runWithin (quiet : plan.Quiet heard) (levels : Nat) (task : Task)
    (permitted : task.Permitted heard) : FailsWith (Expected heard) (runWithin plan levels task) := by
  induction levels generalizing task with
  | zero => exact .throw (expected_recursionLimit _ _)
  | succ levels ih =>
    have answers := answers_hostOf quiet ih
    exact failsWith_entering (expected_perform answers permitted) (expected_recursionLimit _ _)

/-! ### The whole expansion -/

/-- The prepared source is evaluated as expected: its actions are those of placeholders, or leaves that
are none spell the name of the results. -/
theorem expected_evaluate {leaves : List Token} {name text : String} (quiet : plan.Quiet heard)
    (asking : Asking (fun name => plan.placeholders.get? name ≠ none) leaves)
    (spelling : text.toList = spelled leaves) (between : MentionsBetween leaves → heard) :
    FailsWith (Expected heard) (evaluate plan name text) := by
  have runs := fun task => @expected_runWithin heard plan quiet plan.settings.maxDepth task
  have answers := answers_hostOf quiet runs
  refine .bind (failsWith_newObject _) fun dot => .bind ?_ fun _ => .bind .get fun _ => .pure _
  refine expected_evaluateText_of_actions answers dot fun items reads => ?_
  by_cases names : ∃ item ∈ items, askedName ∈ item.members
  · rcases readIn_leaves asking (spelling ▸ reads) names with mentions | ⟨placeholder, listed, rfl⟩
    · exact Or.inl fun _ _ _ _ => Or.inl (between mentions)
    · refine Or.inr ⟨placeholder, rfl, fun subject => failsWith_member subject fun other _ same => ?_⟩
      cases same
      exact expected_resultOf quiet runs (Or.inr listed)
  · refine Or.inl fun item member named asks => Or.inr ?_
    rintro rfl
    exact names ⟨item, member, asks⟩

/-- What is evaluated mentions results only if the source does. -/
theorem Plan.Echoing.quiet {source : Tree} (echoing : plan.Echoing source)
    (told : Mentions (source.text Tree.root) → heard) : plan.Quiet heard where
  mutators name text found mentions := told (echoing.mutators name text found mentions)
  helpers name text found mentions := told (echoing.helpers name text found mentions)
  placeholders name meaning found text evaluated mentions :=
    told ((echoing.placeholders name meaning found).2 text evaluated mentions)

theorem echoing_of_prepare {source t : Tree} {text : String} {origin : Origin} {parsing : ParseSettings}
    {settings : Settings} (parsed : parse text origin parsing = .ok source)
    (ran : prepare settings source = .ok plan t) : plan.Echoing source := by
  have prepares : Prepares (fun t => t = source) (prepare settings) fun plan _ => plan.Echoing source :=
    prepares_prepare parsed
  have echoing := prepares source rfl
  rw [ran] at echoing
  exact echoing

/-- The placeholders of a prepared source ask for results that are there. -/
theorem asking_of_prepare {source t : Tree} {text : String} {origin : Origin}
    {parsing : ParseSettings} {settings : Settings} (parsed : parse text origin parsing = .ok source)
    (ran : prepare settings source = .ok plan t) (echoing : plan.Echoing source) :
    Asking (fun name => plan.placeholders.get? name ≠ none) (t.tokens Tree.root) := by
  intro leaf member placeholder
  obtain ⟨x, _, found⟩ := List.mem_filterMap.mp member
  obtain ⟨name, meaning, plain, value, listed, _⟩ :=
    (staged_prepare parsed ran).asked x leaf found placeholder
  exact ⟨name, value, plain, (echoing.placeholders name meaning listed).1, by simp [listed]⟩

end Expansion

open Expansion

/-- **Failures that an expansion does not have.** -/
theorem expand_failures {source : String} {origin : Origin} {parsing : ParseSettings}
    {settings : Settings} {tree : Tree} {failure : Failure}
    (parsed : parse source origin parsing = .ok tree) (failed : expand settings tree = .error failure) :
    (∀ e, failure ≠ .expansion (.tree e)) ∧
      ∀ name, failure = .expansion (.unknownPlaceholder name) →
        Mentions source ∨ ∃ plan prepared, prepare settings tree = .ok plan prepared ∧
          MentionsBetween (prepared.tokens Tree.root) := by
  have prepares : Prepares (fun t => t = tree) (prepare settings) fun plan _ => plan.Echoing tree :=
    prepares_prepare parsed
  have echoing := prepares tree rfl
  unfold expand expandedText at failed
  cases prepared : prepare settings tree with
  | error early t =>
    rw [prepared] at failed echoing
    obtain ⟨name, receiver, rfl⟩ := echoing
    cases failed
    exact ⟨fun _ => nofun, fun _ => nofun⟩
  | ok plan t =>
    rw [prepared] at failed echoing
    have told : Mentions (tree.text Tree.root) → Mentions source ∨ MentionsBetween (t.tokens Tree.root) :=
      fun mentions => Or.inl (text_of_parse parsed ▸ mentions)
    have quiet := echoing.quiet told
    have asking := asking_of_prepare parsed prepared echoing
    have expected : Template.FailsWith (Expected (Mentions source ∨ MentionsBetween (t.tokens Tree.root)))
        (evaluate plan t.name (t.text Tree.root)) :=
      expected_evaluate quiet asking (toList_join _) Or.inr
    dsimp only at failed
    cases evaluated : evaluate plan t.name (t.text Tree.root) (startState plan) with
    | error early final =>
      rw [evaluated] at failed
      cases failed
      obtain ⟨noEdit, unknown⟩ := expected _ _ _ evaluated
      exact ⟨noEdit, fun name same => (unknown name same).imp_right fun between =>
        ⟨plan, t, rfl, between⟩⟩
    | ok out final =>
      rw [evaluated] at failed
      simp only [bind, Except.bind] at failed
      split at failed
      · cases failed
      · cases failed
        exact ⟨fun _ => nofun, fun _ => nofun⟩

/-- A source that asks for the result of a placeholder that is not there. -/
theorem expand_failures_literal :
    ∃ tree, parse "`<:.GetResult \"x\":>`" .text { requirePackage := false } = .ok tree ∧
      expand {} tree = .error (.expansion (.unknownPlaceholder "x")) ∧
      (∀ e, Failure.expansion (.unknownPlaceholder "x") ≠ .expansion (.tree e)) ∧
      ∀ name, Failure.expansion (.unknownPlaceholder "x") = .expansion (.unknownPlaceholder name) →
        Mentions "`<:.GetResult \"x\":>`" ∨ ∃ plan prepared, prepare {} tree = .ok plan prepared ∧
          MentionsBetween (prepared.tokens Tree.root) := by
  have runs : (parse "`<:.GetResult \"x\":>`" .text { requirePackage := false }).toOption.any
      (fun tree => decide (expand {} tree = .error (.expansion (.unknownPlaceholder "x")))) = true := by
    decide +kernel
  obtain ⟨tree, parsed, failed⟩ := exists_of_any runs
  have failed := of_decide_eq_true failed
  exact ⟨tree, parsed, failed, expand_failures parsed failed⟩

/-- A source without the name, which is left with it once a template and its comments are taken out. -/
theorem expand_failures_rejoined :
    ∃ tree, parse "\"<:/*\" */ .Get/* c */template <:.N>S struct \x7b\x7dResult \"zzz\":>\n" .text
        { requirePackage := false } = .ok tree ∧
      expand {} tree = .error (.expansion (.unknownPlaceholder "zzz")) ∧
      ¬Mentions "\"<:/*\" */ .Get/* c */template <:.N>S struct \x7b\x7dResult \"zzz\":>\n" := by
  have runs : (parse "\"<:/*\" */ .Get/* c */template <:.N>S struct \x7b\x7dResult \"zzz\":>\n" .text
      { requirePackage := false }).toOption.any
      (fun tree => decide (expand {} tree = .error (.expansion (.unknownPlaceholder "zzz")))) = true := by
    decide +kernel
  obtain ⟨tree, parsed, failed⟩ := exists_of_any runs
  refine ⟨tree, parsed, of_decide_eq_true failed, ?_⟩
  show ¬askedName.toList <:+: _
  decide +kernel

end TypeLoom
