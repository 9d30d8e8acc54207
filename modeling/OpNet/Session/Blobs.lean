import OpNet.Session.Answer

/-!
# Commands on workspaces

Commands that create blobs, look at them and change what they hold.

* `BlobCommand.run` — the answer and the store afterwards.
-/

set_option autoImplicit false

namespace OpNet

/-- What is done with the blob of a name that has to be there. -/
inductive BlobUse where
  | set (v : Datum)
  | content
  | holds (t : DataType)
  | cloned (t : DataType)
  | typeName
  | describe
  | reset

/-- The commands on one workspace. -/
inductive BlobCommand where
  | create (name : String)
  | feed (name : String) (v : Datum)
  | has (name : String)
  | fetch (name : String) (t : DataType)
  | use (name : String) (what : BlobUse)
  | names
  | size
  | dump
  /-- Lets a blob share the payload of a blob of some workspace. -/
  | share (name sourceSpace source : String)
  /-- Compares a blob with a blob of some workspace. -/
  | same (name otherSpace other : String)

/-- A description of what a blob holds. -/
def Heap.describe (heap : Heap) (b : BlobId) : String :=
  match heap.typeName? b with
  | none => "Blob \x7b type_name: None \x7d"
  | some t => "Blob \x7b type_name: Some(" ++ Text.quoted t ++ ") \x7d"

/-- The reply to a use of a blob, and the store afterwards. -/
def BlobUse.run (s : Store) (b : BlobId) : BlobUse → Reply × Store
  | set v =>
    let heap := s.heap.set b v
    (.content (heap.shown? b), { s with heap })
  | content => (.content (s.heap.shown? b), s)
  | holds t => (.flag (s.heap.holds b t), s)
  | cloned t => (.optionalValue ((s.heap.valueAt? b t).bind Datum.known?), s)
  | typeName => (.optionalText (s.heap.typeName? b), s)
  | describe => (.text (s.heap.describe b), s)
  | reset => (.flag true, { s with heap := s.heap.reset b })

/-- The blobs of two names that both have to be there; the first one missing is the fault. -/
def Store.getPair (s : Store) (ws name ws' name' : String) : Except Fault (BlobId × BlobId) := do
  let a ← s.getBlob ws name
  let b ← s.getBlob ws' name'
  return (a, b)

/-- What every blob of a workspace holds, as far as it can be shown. -/
def Store.contents (s : Store) (ws : String) : List (String × Option Value) :=
  (s.names.space ws).toList.map fun (name, b) => (name, s.heap.shown? b)

/-- The answer to a command on a workspace, and the store afterwards. -/
def BlobCommand.run (s : Store) (ws : String) : BlobCommand → Result × Store
  | create name =>
    let (b, s) := s.create ws name
    (.reply (.content (s.heap.shown? b)), s)
  | feed name v =>
    let (b, s) := s.feed ws name v
    (.reply (.content (s.heap.shown? b)), s)
  | has name => (.reply (.flag (s.has ws name)), s)
  | fetch name t => (.ofExcept ((Reply.ofDatum ·.value) <$> s.fetch ws name t), s)
  | use name what =>
    match s.getBlob ws name with
    | .error cause => (.fault cause, s)
    | .ok b =>
      let (reply, s) := what.run s b
      (.reply reply, s)
  | names => (.reply (.texts (s.blobNames ws)), s)
  | size => (.reply (.size (s.size ws)), s)
  | dump => (.reply (.contents (s.contents ws)), s)
  | share name sourceSpace source =>
    match s.getPair ws name sourceSpace source with
    | .error cause => (.fault cause, s)
    | .ok (a, b) =>
      let heap := s.heap.share a b
      (.reply (.content (heap.shown? a)), { s with heap })
  | same name otherSpace other =>
    match s.getPair ws name otherSpace other with
    | .error cause => (.fault cause, s)
    | .ok (a, b) => (.reply (.same (a = b) (s.heap.samePayload a b)), s)

end OpNet
