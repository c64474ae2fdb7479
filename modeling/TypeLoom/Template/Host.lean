/-
**Hosts: what a template can ask for.**

A template reads fields of objects and calls functions; both are answered by its host, which keeps a
state of its own. An answer can fail with a message, which becomes an error of the calling template,
or with a fatal failure, which passes through every evaluation unchanged.
-/

import TypeLoom.Template.Error
import TypeLoom.Template.Value

namespace TypeLoom.Template

/-- Why a host gave no answer. -/
inductive CallError (ε : Type) where
  | message (text : String)
  | fatal (failure : ε)
  deriving Repr, DecidableEq

/-- An answer of a host with state `σ`; the state after a failure is part of it. -/
abbrev Answer (σ ε : Type) := EStateM (CallError ε) σ

/-- The fields and functions of objects of type `ω`. -/
structure Host (ω σ ε : Type) where
  /-- The member of an object with the given name, if it has one. -/
  field : ω → String → List (Value ω) → Answer σ ε (Option (Value ω))
  /-- The function with the given name, if there is one. -/
  function : String → Option (List (Value ω) → Answer σ ε (Value ω))
  /-- How an error of a template is reported. -/
  report : TemplateError → ε

variable {ω σ ε α : Type}

/-- Fail with a message. -/
def refuse (text : String) : Answer σ ε α :=
  throw (.message text)

/-- Fail unless there are exactly `count` arguments. -/
def expectArgs (name : String) (args : List (Value ω)) (count : Nat) : Answer σ ε Unit :=
  if args.length == count then pure ()
  else refuse ("wrong number of args for " ++ name ++ s!": want {count} got {args.length}")

/-- Fail because there is no argument at all. -/
def noArgs (name : String) : Answer σ ε α :=
  refuse ("wrong number of args for " ++ name ++ ": want at least 1 got 0")

end TypeLoom.Template
