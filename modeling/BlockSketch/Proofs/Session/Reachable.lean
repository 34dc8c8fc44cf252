import BlockSketch.Proofs.Session.Codes

/-!
# The sessions there are

A session starts empty or with the variables of a workspace, and then it serves requests. Requests
may fail; what they did before the failure stays done. `Session.Reachable` are the sessions that come
about in this way, and `Reachable.sound` is what is true of all their registries.
-/

namespace BlockSketch

/-- What can be asked of a session. -/
inductive Request
  /-- the code of a block -/
  | code (b : Block)
  /-- the code of a block by a rule of choice -/
  | codeBy (rule : Rule) (b : Block)
  /-- the expression in a socket -/
  | socket (b : Block) (name : String) (place : Precedence)
  /-- the statements of a stack -/
  | stack (b : Block)
  /-- the identifier of the variable in a field -/
  | reference (b : Block) (field : String)
  /-- a declaration -/
  | declare (key text : String)

namespace Session

/-- The session after a request, whether it succeeded or failed. -/
def serve (s : Session) : Request → Session
  | .code b => (s.perform b.code).2
  | .codeBy rule b => (s.perform (b.codeBy rule)).2
  | .socket b name place => (s.perform (b.socketExpr name place)).2
  | .stack b => (s.perform b.stackCode).2
  | .reference b field => (s.perform (Generate.reference b.head field)).2
  | .declare key text => (s.perform (Generate.declare key text)).2

/-- The sessions that come about. -/
inductive Reachable : Session → Prop
  | new (options : Options) : Reachable (new options)
  | start (w : Workspace) (options : Options) : Reachable (start w options)
  | serve {s : Session} (request : Request) : Reachable s → Reachable (s.serve request)

end Session

/-! ### What every request keeps -/

namespace Plan

/-- Nothing is demanded of a plan that may result in anything. -/
theorem meets_true {α : Type} {A : String → Precedence → Expr → Expr → Prop}
    {N : String → Prop} (plan : Plan α) : plan.Meets A N fun _ => True := by
  induction plan with
  | done _ => trivial
  | declare _ _ ih => exact ih
  | value _ _ _ _ ih => exact fun e _ => ih e
  | reference _ _ ih => exact fun name _ => ih name

end Plan

namespace Generate.Invariant

variable {Inv : Session → Prop}

theorem code (hInv : Invariant Inv) (b : Block) : Ensures Inv b.code fun _ => True :=
  Block.ensures_code hInv (N := fun _ => True) (Q := fun _ _ => True) (fun _ _ _ => trivial)
    (fun _ _ _ plan _ _ _ => plan.meets_true) b

theorem codeBy (hInv : Invariant Inv) (rule : Rule) (b : Block) :
    Ensures Inv (b.codeBy rule) fun _ => True :=
  Block.ensures_apply hInv (N := fun _ => True) (Q := fun _ _ => True) (fun _ _ _ => trivial)
    (fun _ child _ => hInv.code child) fun _ plan _ _ => plan.meets_true

theorem socketExpr (hInv : Invariant Inv) (b : Block) (socket : String) (place : Precedence) :
    Ensures Inv (b.socketExpr socket place) fun _ => True := by
  cases h : b.inSocket socket with
  | none =>
    rw [Block.socketExpr_of_none h]
    exact ensures_pure trivial
  | some child =>
    rw [Block.socketExpr_of_some h]
    exact ((Block.ensures_fitted (hInv.code child) place).map some).mono fun _ _ => trivial

theorem socketText (hInv : Invariant Inv) (b : Block) (socket : String) (place : Precedence)
    (fallback : String) : Ensures Inv (b.socketText socket place fallback) fun _ => True :=
  (hInv.socketExpr b socket place).bind fun _ _ => ensures_pure trivial

theorem stackCode (hInv : Invariant Inv) (b : Block) :
    Ensures Inv b.stackCode fun _ => True := by
  refine (ensures_mapM (Q := fun _ _ => True) fun block _ => ?_).mono fun _ _ => trivial
  exact ((hInv.code block).map Code.asStatement).mono fun _ _ => trivial

/-- **Every request keeps what its two effects keep.** -/
theorem serve (hInv : Invariant Inv) {s : Session} (hs : Inv s) (request : Request) :
    Inv (s.serve request) := by
  cases request with
  | code b => exact (hInv.code b s hs).1
  | codeBy rule b => exact (hInv.codeBy rule b s hs).1
  | socket b name place => exact (hInv.socketExpr b name place s hs).1
  | stack b => exact (hInv.stackCode b s hs).1
  | reference b field =>
    exact (ensures_reference hInv (P := fun _ => True) (fun _ _ _ => trivial) b.head field s hs).1
  | declare key text => exact hInv.declare key text hs

end Generate.Invariant

namespace Session

/-- A sound registry stays sound. -/
theorem invariant_sound : Generate.Invariant fun s => s.registry.Sound where
  declare := fun _ _ hs => hs
  identify := fun name hs => hs.identify name

theorem sound_declareVariables (declared : List Declared) {s : Session} (hs : s.registry.Sound) :
    (declareVariables declared s).2.registry.Sound := by
  induction declared generalizing s with
  | nil => exact hs
  | cons v declared ih => exact ih (hs.identify v.name)

theorem sound_start (w : Workspace) (options : Options) : (start w options).registry.Sound := by
  have hs := sound_declareVariables w.declared (s := new options) Registry.sound_empty
  rw [start]
  simp only
  split <;> exact hs

theorem options_declareVariables (declared : List Declared) (s : Session) :
    (declareVariables declared s).2.options = s.options := by
  induction declared generalizing s with
  | nil => rfl
  | cons v declared ih => exact ih _

theorem options_start (w : Workspace) (options : Options) : (start w options).options = options := by
  have hs := options_declareVariables w.declared (new options)
  rw [start]
  simp only
  split <;> exact hs

/-- **The registry of every session is sound.** -/
theorem Reachable.sound {s : Session} (h : s.Reachable) : s.registry.Sound := by
  induction h with
  | new options => exact Registry.sound_empty
  | start w options => exact sound_start w options
  | serve request _ ih => exact invariant_sound.serve ih request

end Session

end BlockSketch
