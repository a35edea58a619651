import EsdumanOS.OpenFile

/-!
# Reading a file back

An open file is read in pieces, from wherever its offset stands, while other calls go on in between.
Next to the session on the volume stands the one on the content alone, an offset into a string of
bytes.
-/

namespace EsdumanOS

/-- What there is of the `n` bytes from `off` on. -/
def Content.slice (c : Content) (off n : ℕ) : List UInt8 :=
  (List.range (min n (c.size - off))).map fun k => c.bytes (off + k)

/-- While a file is open: a call on the volume, a request for bytes, a new offset. -/
inductive ReadEvent
  | other (e : Env) (op : FsOp)
  | read (e : Env) (size : ℕ)
  | seek (offset : ℕ)

def readSession (read : Env → Fs → VfsFile → ℕ → List UInt8 × VfsFile) :
    Fs → VfsFile → List ReadEvent → List (List UInt8 × ℕ)
  | _, _, [] => []
  | s, file, .other e op :: events => readSession read (op.run e s).2 file events
  | s, file, .read e size :: events =>
    let r := read e s file size
    (r.1, r.2.currentOffset) :: readSession read s r.2 events
  | s, file, .seek offset :: events =>
    readSession read s { file with currentOffset := offset } events

def Content.session (c : Content) : ℕ → List ReadEvent → List (List UInt8 × ℕ)
  | _, [] => []
  | off, .other _ _ :: events => c.session off events
  | off, .read _ size :: events =>
    let out := c.slice off size
    (out, off + out.length) :: c.session (off + out.length) events
  | _, .seek offset :: events => c.session offset events

def FsOp.Elsewhere (name : Name) (parentId : ℕ) : FsOp → Prop
  | .createRaw _ _ _ => True
  | .delete name' parentId' => ¬ (name' = name ∧ parentId' = parentId)
  | _ => False

/-- The device serves the reads, no request is longer than `2 ^ 31`, and the file is left alone. -/
def ReadEvent.Fair (name : Name) (parentId : ℕ) : ReadEvent → Prop
  | .other _ op => op.Elsewhere name parentId
  | .read e size => size ≤ 2 ^ 31 ∧ ∀ r, e.readFault r = none
  | .seek _ => True

end EsdumanOS
