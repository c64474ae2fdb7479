/-
**Evaluations that are stopped.**

Two hosts are compared. The first one gives the answers of the second one, unless it fails in a way
that stops it: then nothing is said about the second one, or it is said what it fails with in its
turn (`Stop`). A template that is evaluated with the two hosts passes this on (`Stop.bond`): the first
evaluation does what the second one does, or it fails with what stopped its host. No structure of a
template takes such a failure for an answer, and none puts another failure in its place.
-/

import TypeLoom.Proofs.Template.Passing

namespace TypeLoom.Template

variable {ω σ ε S α β : Type}

/-- How a first run is stopped: the failures that end it, and what a second run fails with in their
place, when that is known. -/
structure Stop (ε : Type) where
  ends : ε → Prop
  mate : Option (ε → ε)

/-- The first outcome is the second one, or the first run was stopped. -/
inductive Stop.Meets (stop : Stop ε) : EStateM.Result ε S α → EStateM.Result ε S α → Prop
  | ok (a : α) (s : S) : Meets stop (.ok a s) (.ok a s)
  | error (e : ε) (s : S) (goes : ¬stop.ends e) : Meets stop (.error e s) (.error e s)
  | stopped (e : ε) (s : S) (r : EStateM.Result ε S α) (ends : stop.ends e)
      (mated : ∀ g ∈ stop.mate, r = .error (g e) s) : Meets stop (.error e s) r

/-- The first computation does what the second one does, or it is stopped. -/
def Stop.UpTo (stop : Stop ε) (m m' : EStateM ε S α) : Prop :=
  ∀ s, stop.Meets (m s) (m' s)

/-- The stop of answers: a fatal failure that stops ends an answer, a message does not. -/
def Stop.call (stop : Stop ε) : Stop (CallError ε) where
  ends
    | .fatal failure => stop.ends failure
    | .message _ => False
  mate := stop.mate.map fun g e =>
    match e with
    | .fatal failure => .fatal (g failure)
    | .message text => .message text

variable {stop : Stop ε}

theorem Stop.Meets.eq_of_goes {r r' : EStateM.Result ε S α} (meets : stop.Meets r r')
    (goes : ∀ e s, r = .error e s → ¬stop.ends e) : r' = r := by
  cases meets with
  | ok => rfl
  | error => rfl
  | stopped e s r ends => exact absurd ends (goes e s rfl)

namespace Stop.UpTo

variable {m m' : EStateM ε S α} {f f' : α → EStateM ε S β}

theorem pure (a : α) : stop.UpTo (pure a : EStateM ε S α) (pure a) :=
  fun s => .ok a s

theorem throw {e : ε} (goes : ¬stop.ends e) :
    stop.UpTo (throw e : EStateM ε S α) (throw e) :=
  fun s => .error e s goes

theorem bind (first : stop.UpTo m m') (next : ∀ a, stop.UpTo (f a) (f' a)) :
    stop.UpTo (m >>= f) (m' >>= f') := by
  intro s
  have met := first s
  show stop.Meets (EStateM.bind m f s) (EStateM.bind m' f' s)
  unfold EStateM.bind
  generalize m s = r, m' s = r' at met
  cases met with
  | ok a s' => exact next a s'
  | error e s' goes => exact .error e s' goes
  | stopped e s' r' ends mated =>
    exact .stopped e s' _ ends fun g known => by rw [mated g known]

end Stop.UpTo

/-- The congruence of doing the same up to the stop. -/
def Stop.congruence (stop : Stop ε) : Congruence ε S where
  rel := stop.UpTo
  pure := .pure
  bind := .bind

theorem upTo_ask {answer answer' : Answer σ ε α} (agree : stop.call.UpTo answer answer')
    {setting : Setting ω σ ε} (goes : ∀ e, ¬stop.ends (setting.host.report e)) (line : Nat)
    (asked : String) : stop.UpTo (setting.ask line asked answer : Eval ω σ ε α)
      (setting.ask line asked answer') := by
  intro s
  have met := agree s.host
  unfold Setting.ask
  generalize answer s.host = r, answer' s.host = r' at met
  cases met with
  | ok a host => exact .ok a _
  | error e host carries =>
    cases e with
    | fatal failure => exact .error failure _ carries
    | message text => exact .error _ _ (goes _)
  | stopped e host r' ends mated =>
    cases e with
    | fatal failure =>
      refine .stopped failure _ _ ends fun g known => ?_
      rw [mated _ (Option.mem_map_of_mem _ known)]
    | message text => exact ends.elim

theorem upTo_finish {m m' : Eval ω σ ε Unit} (agree : stop.UpTo m m')
    (vars : List (String × Value ω)) : stop.UpTo (finish vars m) (finish vars m') := by
  intro state
  have met := agree { vars, host := state }
  unfold finish
  generalize m { vars, host := state } = r, m' { vars, host := state } = r' at met
  cases met with
  | ok a progress => exact .ok _ _
  | error e progress goes => exact .error e _ goes
  | stopped e progress r' ends mated =>
    exact .stopped e _ _ ends fun g known => by rw [mated g known]

/-- The bond of doing the same up to the stop: an evaluation is stopped by what stops its host, and
otherwise does what the second one does (`bond_execute`). -/
def Stop.bond [ObjectText ω] (stop : Stop ε) (report : TemplateError → ε)
    (goes : ∀ e, ¬stop.ends (report e)) : Bond ω σ ε where
  answers := stop.call.congruence
  evals := stop.congruence
  runs := stop.congruence
  report := report
  refuse _ := Stop.UpTo.throw id
  get s := Stop.Meets.ok s s
  modify change _ s := Stop.Meets.ok () (change s)
  fail e := Stop.UpTo.throw (goes e)
  ask agree _ reported line asked := upTo_ask agree (fun e => reported ▸ goes e) line asked
  finish agree vars := upTo_finish agree vars

end TypeLoom.Template
