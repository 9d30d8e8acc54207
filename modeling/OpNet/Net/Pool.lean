import OpNet.Definition
import OpNet.Fault

/-!
# Worker pools

A dag net has a pool of workers of its own, whose threads are started when the net is built. Whether
they start is up to the machine. The library knows nothing of that but how it has ended.

* `WorkerPools` — a machine, as far as it starts pools. It is a parameter of every construction, so
  that no two of them need find it alike.
* `WorkerPools.startFor` — starts the pool of a net; `WorkerPools.startFor_eq_ok_iff` says when that
  succeeds.
* `WorkerPools.Serves` — the pool of a net starts, if the net asks for one.
* `WorkerPools.plentiful` — a machine that never runs out of threads.
-/

set_option autoImplicit false

namespace OpNet

/-- How the start of a worker pool ends. -/
inductive PoolStart where
  | started
  /-- The threads are refused, for a reason told in words. -/
  | refused (reason : String)
  | panicked (text : String)
deriving DecidableEq, Inhabited

/-- How a machine answers when a pool is to be started. The threads of a pool are named after its
net; there are as many as it has workers. -/
structure WorkerPools where
  start (net : String) (workers : Nat) : PoolStart

namespace WorkerPools

variable {pools : WorkerPools} {d : NetDef}

/-- Starts the pool of a net. It has at least one worker. -/
def startFor (pools : WorkerPools) (d : NetDef) : Outcome Unit :=
  match pools.start d.name (max 1 d.workers) with
  | .started => .ok ()
  | .refused reason =>
    .error (.fault (.other s!"cannot start worker pool for net {Text.quoted d.name}: {reason}"))
  | .panicked text => .error (.panic text)

/-- The pool of a net starts. -/
def Starts (pools : WorkerPools) (d : NetDef) : Prop :=
  pools.start d.name (max 1 d.workers) = .started

instance : Decidable (pools.Starts d) := inferInstanceAs (Decidable (_ = _))

/-- The pool of a net starts, if the net asks for one. -/
def Serves (pools : WorkerPools) (d : NetDef) : Prop := d.netType = "dag" → pools.Starts d

instance : Decidable (pools.Serves d) := inferInstanceAs (Decidable (_ → _))

theorem startFor_eq_ok_iff : pools.startFor d = .ok () ↔ pools.Starts d := by
  rw [startFor, Starts]
  cases pools.start d.name (max 1 d.workers) <;> simp

theorem exists_startFor_eq_error (h : ¬pools.Starts d) :
    ∃ stop, pools.startFor d = .error stop := by
  rw [← startFor_eq_ok_iff] at h
  cases hstart : pools.startFor d with
  | error stop => exact ⟨stop, rfl⟩
  | ok => exact absurd hstart h

/-- A pool that does not start is not reported as a blob that is missing. -/
theorem ne_blobNotFound_of_startFor {stop : Stop} (h : pools.startFor d = .error stop)
    (name : String) : stop ≠ .fault (.blobNotFound name) := by
  rintro rfl
  rw [startFor] at h
  split at h <;> cases h

/-! ## A machine with threads for all -/

/-- What a thread panics with that is to be called by a name with a zero byte in it. -/
def zeroByteText (bytes : List UInt8) : String :=
  s!"thread name may not contain interior null bytes: NulError({bytes.idxOf 0}, {bytes})"

/-- A machine that never runs out of threads. A thread has the name of its net and a number, and
there may be no zero byte in it. -/
def plentiful : WorkerPools where
  start net _ :=
    if '\x00' ∈ net.toList then .panicked (zeroByteText (net ++ "-dag-0").toUTF8.toList)
    else .started

end WorkerPools
end OpNet
