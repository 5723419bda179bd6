import ScriptIndex.Command.Basic
import ScriptIndex.Constant
import ScriptIndex.MiscToken
import ScriptIndex.NameMap
import ScriptIndex.Symbol

/-!
# Facts about a document

All that the editor features need to know about one document: its text and the names it may use.
-/
namespace ScriptIndex

structure Facts where
  content : String
  commands : NameMap Command
  constants : NameMap Constant
  symbols : NameMap Symbol
  miscTokens : NameMap MiscToken

end ScriptIndex
