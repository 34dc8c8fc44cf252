import BlockSketch.Statement

/-!
# Plan: what a rule asks for while it makes code

The code of a block is made of the codes of the blocks in its sockets, of identifiers, and of
things that must be declared for it. A rule does not fetch these itself. It makes a `Plan`, which
says what is wanted and in what order, and how the answers become code. There are four kinds of
plans:

* `Plan.done`: nothing more is wanted.
* `Plan.declare`: something must be declared.
* `Plan.value`: the expression in a socket is wanted, fit for a place of some tier; if the socket is
  empty, a fallback stands in for it.
* `Plan.reference`: the identifier of the variable in a field is wanted.

Since a plan is plain data, what every rule has in common — that it only adds to what was there,
that it asks in the same order whatever the answers are — is a statement about plans and needs no
look at the rules. How the answers are found is the session's work.
-/

namespace BlockSketch

/-- A declaration that code can ask for: the key that makes it unique, and its text. -/
structure Declaration where
  key : String
  text : String
deriving DecidableEq, Repr

/-- A plan for making something of type `α`. -/
inductive Plan (α : Type) : Type
  | done (result : α)
  | declare (declaration : Declaration) (rest : Plan α)
  | value (socket : String) (place : Precedence) (fallback : Expr) (rest : Expr → Plan α)
  | reference (field : String) (rest : String → Plan α)

namespace Plan

variable {α β : Type}

/-- First one plan, then the one that its result leads to. -/
def bind : Plan α → (α → Plan β) → Plan β
  | done result, next => next result
  | declare declaration rest, next => declare declaration (rest.bind next)
  | value socket place fallback rest, next =>
    value socket place fallback fun e => (rest e).bind next
  | reference field rest, next => reference field fun name => (rest name).bind next

instance : Monad Plan where
  pure := done
  bind := bind

instance : LawfulMonad Plan :=
  LawfulMonad.mk' Plan
    (by
      intro α plan
      change plan.bind (fun a => done a) = plan
      induction plan with
      | done _ => rfl
      | declare _ _ ih => simp [bind, ih]
      | value _ _ _ _ ih => simp [bind, ih]
      | reference _ _ ih => simp [bind, ih])
    (fun _ _ => rfl)
    (by
      intro α β γ plan f g
      change (plan.bind f).bind g = plan.bind fun a => (f a).bind g
      induction plan with
      | done _ => rfl
      | declare _ _ ih => simp [bind, ih]
      | value _ _ _ _ ih => simp [bind, ih]
      | reference _ _ ih => simp [bind, ih])

/-- Asks for a declaration. -/
def need (declaration : Declaration) : Plan Unit :=
  declare declaration (done ())

/-- Asks for the expression in a socket. -/
def ask (socket : String) (place : Precedence) (fallback : Expr) : Plan Expr :=
  value socket place fallback done

/-- Asks for the identifier of the variable in a field. -/
def refer (field : String) : Plan String :=
  reference field done

end Plan

end BlockSketch
