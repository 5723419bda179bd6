import ScriptIndex.Editor.Basic
import ScriptIndex.NameMap

/-!
# Scripted editors

A script lists the answers of an editor. What is not listed is refused.
-/
namespace ScriptIndex.Editor

open Settings

structure Script where
  /-- Reasons for which methods are refused. -/
  failures : NameMap String := ∅
  config : Option Value := none
  /-- Settings by the URL they are asked for, before `config`. -/
  configFor : NameMap Value := ∅
  files : NameMap Value := ∅
  urls : NameMap Value := ∅
  sources : Option Value := none

namespace Script

def entry? (script : Script) : Query → Option Value
  | .settings scope => (scope.bind fun url => script.configFor.find? url.text).or script.config
  | .readUrl id | .readInclude id => script.files.find? id
  | .urlOf id => script.urls.find? id
  | .sources => script.sources
  | .register _ => some .null

def editor (script : Script) : Editor where
  answer query :=
    match script.failures.find? query.method with
    | some reason => .error reason
    | none =>
      match script.entry? query with
      | some value => .ok value
      | none => .error "no answer"

end Script
end ScriptIndex.Editor
