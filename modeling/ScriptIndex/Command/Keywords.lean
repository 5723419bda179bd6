import ScriptIndex.Command.Basic

/-!
# Keywords of the script language

Each keyword is a command whose snippet writes the statement or block that it starts.
-/
namespace ScriptIndex.Command

/-- The `i`th stop of a snippet, filled with a text to be replaced. -/
def snippetStop (i : Nat) (text : String) : String :=
  "$\x7b" ++ toString i ++ ":" ++ text ++ "\x7d"

def snippetBlock (body : String) : String := " \x7b\n\t" ++ body ++ "\n\x7d"

/-- Name, description and snippet of each keyword. -/
def keywordTable : List (String × String × String) :=
  [("script", "Script block", "script " ++ snippetStop 1 "MyScript" ++ snippetBlock "$0"),
   ("movement", "Movement block", "movement " ++ snippetStop 1 "MyMovement" ++ snippetBlock "$0"),
   ("mart", "Mart block", "mart " ++ snippetStop 1 "MyMart" ++ snippetBlock "$0"),
   ("mapscripts", "Map scripts block",
     "mapscripts " ++ snippetStop 1 "MyMap_MapScripts" ++ snippetBlock "$0"),
   ("text", "Text block", "text " ++ snippetStop 1 "MyText" ++ snippetBlock "\"$0\""),
   ("raw", "Raw assembly block", "raw `\n\t$0\n`"),
   ("const", "Constant declaration",
     "const " ++ snippetStop 1 "NAME" ++ " = " ++ snippetStop 0 "value"),
   ("if", "If statement", "if (" ++ snippetStop 1 "condition" ++ ")" ++ snippetBlock "$0"),
   ("elif", "Elif statement", "elif (" ++ snippetStop 1 "condition" ++ ")" ++ snippetBlock "$0"),
   ("else", "Else statement", "else" ++ snippetBlock "$0"),
   ("while", "While loop", "while (" ++ snippetStop 1 "condition" ++ ")" ++ snippetBlock "$0"),
   ("do", "Do-while loop",
     "do" ++ snippetBlock "$0" ++ " while (" ++ snippetStop 1 "condition" ++ ")"),
   ("switch", "Switch statement",
     "switch (var(" ++ snippetStop 1 "VAR_TEMP_0" ++ "))" ++
       snippetBlock ("case " ++ snippetStop 2 "0" ++ ":\n\t\t$0")),
   ("case", "Switch case", "case " ++ snippetStop 1 "0" ++ ":\n\t$0"),
   ("default", "Switch default case", "default:\n\t$0"),
   ("break", "Break out of loop or switch", "break"),
   ("continue", "Continue loop", "continue"),
   ("format", "Auto-format text", "format(\"$0\")"),
   ("var", "Variable value", "var(" ++ snippetStop 1 "VAR_TEMP_0" ++ ")"),
   ("flag", "Flag value", "flag(" ++ snippetStop 1 "FLAG_TEMP_1" ++ ")"),
   ("defeated", "Trainer defeated check", "defeated(" ++ snippetStop 1 "TRAINER" ++ ")"),
   ("poryswitch", "Compile-time switch",
     "poryswitch(" ++ snippetStop 1 "GAME_VERSION" ++ ")" ++
       snippetBlock (snippetStop 2 "RUBY" ++ ": $0")),
   ("moves", "Inline movement list", "moves(\n\t$0\n)")]

def keywords : List Command :=
  keywordTable.map fun (name, detail, snippet) =>
    { name, kind := .keyword, detail, insertText := some snippet }

end ScriptIndex.Command
