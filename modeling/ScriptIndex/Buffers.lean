import ScriptIndex.NameMap

/-!
# Open documents

The buffers hold the texts of the documents that are open in the editor. A text over the size limit is
refused, and the document is then no longer held at all.
-/
namespace ScriptIndex

structure Buffers where
  texts : NameMap String := ∅
  /-- The largest number of bytes of a text. -/
  maxSize : Nat := 67108864

/-- What became of a text. -/
inductive PutOutcome where
  | inserted
  | changed
  | unchanged
  | rejected
  deriving DecidableEq, Repr

/-- Whether facts about the document may be out of date afterwards. -/
def PutOutcome.isChange (outcome : PutOutcome) : Bool := outcome != .unchanged

namespace Buffers

def text? (buffers : Buffers) (resource : String) : Option String := buffers.texts.find? resource

/-- Takes in the text of a document. Texts are compared whole, as if no two texts shared a hash. -/
def put (buffers : Buffers) (resource text : String) : PutOutcome × Buffers :=
  if text.utf8ByteSize > buffers.maxSize then
    (.rejected, { buffers with texts := buffers.texts.erase resource })
  else
    let outcome :=
      match buffers.text? resource with
      | none => PutOutcome.inserted
      | some held => if held = text then .unchanged else .changed
    (outcome, { buffers with texts := buffers.texts.insert resource text })

def contains (buffers : Buffers) (resource : String) : Bool := buffers.texts.contains resource

def remove (buffers : Buffers) (resource : String) : Buffers :=
  { buffers with texts := buffers.texts.erase resource }

def size (buffers : Buffers) : Nat := buffers.texts.size

end Buffers
end ScriptIndex
