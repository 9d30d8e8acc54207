import OpNet.Session.Blobs
import OpNet.Session.Inspect
import OpNet.Session.Nets
import OpNet.Session.Operators
import OpNet.Session.Registration

/-!
# Commands

Everything that can be asked of a session.

* `Command.run` — the answer to one command, and the session afterwards.
* `Command.runAll` — the answers to a list of commands, one after another in one session.
-/

set_option autoImplicit false

namespace OpNet

/-- The commands of a session. -/
inductive Command where
  | inspect (c : Inspection)
  | blobs (ws : String) (c : BlobCommand)
  | registration (c : RegistryCommand)
  | gradient (c : GradientCommand)
  | operators (c : OperatorCommand)
  | nets (c : NetCommand)

namespace Command

/-- The answer to a command, and the session afterwards. -/
def run (session : Session) : Command → Answer × Session
  | inspect c => (.ofResult c.answer, session)
  | blobs ws c =>
    let (result, store) := c.run session.store ws
    (.ofResult result, { session with store })
  | registration c =>
    let (result, registry) := c.run session.registry
    (.ofResult result, { session with registry })
  | gradient c =>
    let (result, gradients) := c.run session.gradients
    (.ofResult result, { session with gradients })
  | operators c => c.run session
  | nets c => c.run session

/-- The answers to a list of commands. -/
def runAll (session : Session) : List Command → List Answer
  | [] => []
  | c :: cs =>
    let (answer, session) := c.run session
    answer :: runAll session cs

end Command
end OpNet
