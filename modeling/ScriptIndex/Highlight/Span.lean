/-!
# Token data

A highlighted span is sent as five numbers. The line counts from the line of the span before it, and
the column from the column of the span before it when both are on one line.
-/
namespace ScriptIndex.Highlight

structure Span where
  line : Nat
  start : Nat
  length : Nat
  kind : Nat
  modifiers : Nat
  deriving DecidableEq, Repr

/-- The data of spans that follow a span at the given line and column. -/
def encodeFrom (line start : Nat) : List Span → List Nat
  | [] => []
  | s :: spans =>
    [s.line - line, if s.line = line then s.start - start else s.start, s.length, s.kind,
      s.modifiers] ++ encodeFrom s.line s.start spans

def encode (spans : List Span) : List Nat := encodeFrom 0 0 spans

end ScriptIndex.Highlight
