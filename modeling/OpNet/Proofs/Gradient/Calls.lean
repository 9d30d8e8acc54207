import OpNet.Builtin
import OpNet.Script.Maker

/-!
# Makers as trees of calls

A maker sees and changes its context through a few calls only. What it does next may depend on all
the answers so far, and where the name of a gradient is refused it may go on in another way. So a
maker is a tree: each branch is a list of calls with their answers, and ends with what the maker
gives or with what stops it.

* `Making.Call`, `Making.Call.perform` — the calls, and what they do.
* `Making.Program`, `Making.Program.perform` — the trees, and how they run; `Making.Program.calls`
  are the calls that a run makes.
* `MakerStep.viaCalls_performAll`, `Builtin.viaCalls_copyGradient` — scripted makers and the maker
  of the gradient of a copy are such trees.
-/

set_option autoImplicit false

namespace OpNet
namespace Making

variable {α β : Type}

/-! ## Calls -/

/-- The calls that a maker can make of its context. -/
inductive Call where
  | forward
  | input (i : Nat)
  | output (k : Nat)
  | gradInput (i : Nat)
  | gradInputSparse (i : Nat)
  | setDense (i : Nat) (dense : String)
  | setSparse (i : Nat) (indices values : String)
  | hasGradOutput (k : Nat)
  | gradOutput (k : Nat)
  | gradOutputIndices (k : Nat)
  | gradOutputValues (k : Nat)

/-- Tells a fault as an answer, so that the maker can go on. -/
def attempt (m : Making α) : Making (Except Fault α) := fun cx =>
  match m cx with
  | .ok (a, cx') => .ok (.ok a, cx')
  | .error (.fault cause) => .ok (.error cause, cx)
  | .error (.panic text) => .error (.panic text)

namespace Call

/-- What a call answers. The name of a gradient is refused if the gradient is of the other kind. -/
def Answer : Call → Type
  | forward => OperatorDef
  | input _ | output _ | gradInput _ => String
  | gradInputSparse _ => String × String
  | setDense .. | setSparse .. => Unit
  | hasGradOutput _ => Bool
  | gradOutput _ | gradOutputIndices _ | gradOutputValues _ => Except Fault String

/-- Makes a call. -/
def perform : (c : Call) → Making c.Answer
  | forward => do return (← get).forward
  | input i => Making.input i
  | output k => Making.output k
  | gradInput i => Making.gradInput i
  | gradInputSparse i => Making.gradInputSparse i
  | setDense i dense => Making.setDense i dense
  | setSparse i indices values => Making.setSparse i indices values
  | hasGradOutput k => Making.hasGradOutput k
  | gradOutput k => attempt (Making.gradOutput k)
  | gradOutputIndices k => attempt (Making.gradOutputIndices k)
  | gradOutputValues k => attempt (Making.gradOutputValues k)

end Call

/-- A maker: it is done, or stops, or makes a call and goes on by the answer. -/
inductive Program (α : Type) where
  | done (a : α)
  | halt (stop : Stop)
  | call (c : Call) (next : c.Answer → Program α)

namespace Program

/-- Runs a maker. -/
def perform : Program α → Making α
  | done a => pure a
  | halt stop => throw stop
  | call c next => do
    let answer ← c.perform
    (next answer).perform

/-- The calls of a run, in order. -/
def calls : Program α → GradientContext → List Call
  | done _, _ | halt _, _ => []
  | call c next, cx =>
    c :: match c.perform cx with
      | .ok (answer, cx') => (next answer).calls cx'
      | .error _ => []

end Program

/-! ## Makers made of calls -/

/-- The computation is that of a tree of calls. -/
def ViaCalls (m : Making α) : Prop := ∃ p : Program α, p.perform = m

/-- Runs one maker after another. -/
def Program.bind (p : Program α) (f : α → Program β) : Program β :=
  match p with
  | done a => f a
  | halt stop => halt stop
  | call c next => call c fun answer => (next answer).bind f

theorem Program.perform_bind (p : Program α) (f : α → Program β) :
    (p.bind f).perform = p.perform >>= fun a => (f a).perform := by
  induction p with
  | done a => exact (pure_bind (m := Making) a fun a => (f a).perform).symm
  | halt stop => rfl
  | call c next ih =>
    rw [Program.bind, perform, perform, bind_assoc]
    exact congrArg (c.perform >>= ·) (funext ih)

theorem viaCalls_pure (a : α) : ViaCalls (pure a) := ⟨.done a, rfl⟩

theorem viaCalls_throw (stop : Stop) : ViaCalls (throw stop : Making α) := ⟨.halt stop, rfl⟩

theorem viaCalls_perform (c : Call) : ViaCalls c.perform :=
  ⟨.call c .done, bind_pure (m := Making) c.perform⟩

theorem ViaCalls.bind {m : Making α} {f : α → Making β} (hm : ViaCalls m)
    (hf : ∀ a, ViaCalls (f a)) : ViaCalls (m >>= f) := by
  obtain ⟨p, rfl⟩ := hm
  obtain ⟨q, hq⟩ := Classical.skolem.1 hf
  exact ⟨p.bind q, by rw [Program.perform_bind]; exact congrArg (p.perform >>= ·) (funext hq)⟩

/-- A maker that does not handle a fault ends with it. -/
def rethrow : Except Fault α → Making α
  | .ok a => pure a
  | .error cause => throw (.fault cause)

theorem attempt_bind_rethrow (m : Making α) : attempt m >>= rethrow = m := by
  funext cx
  change (attempt m cx).bind (fun p => rethrow p.1 p.2) = m cx
  rw [attempt]
  cases m cx with
  | ok p => rfl
  | error stop => cases stop <;> rfl

/-- A call whose fault is not handled. -/
theorem viaCalls_of_attempt {m : Making α} (h : ViaCalls (attempt m)) : ViaCalls m := by
  rw [← attempt_bind_rethrow m]
  refine h.bind fun answer => ?_
  cases answer with
  | ok a => exact viaCalls_pure a
  | error cause => exact viaCalls_throw _

theorem viaCalls_gradOutput (k : Nat) : ViaCalls (gradOutput k) :=
  viaCalls_of_attempt (viaCalls_perform (.gradOutput k))

end Making

/-- The maker of the gradient of a copy is a tree of calls. -/
theorem Builtin.viaCalls_copyGradient : Making.ViaCalls copyGradient :=
  (Making.viaCalls_gradOutput 0).bind fun _ =>
    (Making.viaCalls_perform (.gradInput 0)).bind fun _ => Making.viaCalls_pure _

/-! ## Scripted makers -/

open Making in
theorem NameToken.viaCalls_names (token : NameToken) : ViaCalls token.names := by
  cases token with
  | literal name => exact viaCalls_pure _
  | input i => exact (viaCalls_perform (.input i)).bind fun _ => viaCalls_pure _
  | output k => exact (viaCalls_perform (.output k)).bind fun _ => viaCalls_pure _
  | gradInput i => exact (viaCalls_perform (.gradInput i)).bind fun _ => viaCalls_pure _
  | gradInputSparse i =>
    exact (viaCalls_perform (.gradInputSparse i)).bind fun _ => viaCalls_pure _
  | gradOutput k => exact (viaCalls_gradOutput k).bind fun _ => viaCalls_pure _
  | gradOutputIndices k =>
    exact (viaCalls_of_attempt (viaCalls_perform (.gradOutputIndices k))).bind fun _ =>
      viaCalls_pure _
  | gradOutputValues k =>
    exact (viaCalls_of_attempt (viaCalls_perform (.gradOutputValues k))).bind fun _ =>
      viaCalls_pure _

open Making in
theorem NameToken.viaCalls_allNames (tokens : List NameToken) : ViaCalls (allNames tokens) := by
  induction tokens with
  | nil => exact viaCalls_pure _
  | cons token tokens ih =>
    exact token.viaCalls_names.bind fun _ => ih.bind fun _ => viaCalls_pure _

namespace MakerStep

open Making

mutual

theorem viaCalls_perform : (step : MakerStep) → ViaCalls step.perform
  | emit template inputs outputs => by
    rw [perform]
    exact (NameToken.viaCalls_allNames inputs).bind fun _ =>
      (NameToken.viaCalls_allNames outputs).bind fun _ => viaCalls_pure _
  | emitForward => by
    rw [perform]
    exact (Making.viaCalls_perform .forward).bind fun d => viaCalls_pure [d]
  | setDense i name => by
    rw [perform]
    exact (Making.viaCalls_perform (.setDense i name)).bind fun _ => viaCalls_pure _
  | setSparse i indices values => by
    rw [perform]
    exact (Making.viaCalls_perform (.setSparse i indices values)).bind fun _ => viaCalls_pure _
  | ifGrad k yes no => by
    rw [perform]
    refine (Making.viaCalls_perform (.hasGradOutput k)).bind fun answer => ?_
    cases answer with
    | false => exact viaCalls_performAll no
    | true => exact viaCalls_performAll yes
  | fail cause => by
    rw [perform]
    exact viaCalls_throw _

theorem viaCalls_performAll : (steps : List MakerStep) → ViaCalls (performAll steps)
  | [] => by
    rw [performAll]
    exact viaCalls_pure _
  | step :: steps => by
    rw [performAll]
    exact (viaCalls_perform step).bind fun _ => (viaCalls_performAll steps).bind fun _ =>
      viaCalls_pure _

end

end MakerStep

end OpNet
