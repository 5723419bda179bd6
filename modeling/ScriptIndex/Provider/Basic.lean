import ScriptIndex.LookupError
import ScriptIndex.Settings.Basic

/-!
# Providers

A provider says where texts, URIs and settings come from. A call may change the state behind the
provider, which also lets a provider keep a record of its calls.
-/
namespace ScriptIndex

structure Provider (σ : Type) where
  /-- The text of a resource. -/
  read : String → σ → Except LookupError String × σ
  /-- The id of the file that a resource is read from. -/
  resolve : String → σ → String × σ
  /-- The settings that apply to a resource. -/
  settings : String → σ → Except LookupError Settings × σ

end ScriptIndex
