import ScriptIndex.Url.Domain
import ScriptIndex.Url.Segments

/-!
# Reading a URL

Only absolute URLs are read. Control characters and spaces around the text, and tabs and line ends
inside it, are left out first.
-/
namespace ScriptIndex.Url

open Text

/-- The text that is read. -/
def cleaned (text : String) : List Char :=
  let isEdge (c : Char) : Bool := c.toNat ≤ 0x20
  let inner := ((text.toList.dropWhile isEdge).reverse.dropWhile isEdge).reverse
  inner.filter fun c => !isSkipped c

/-- The scheme in lower case, and what follows its colon. -/
def scheme? (cs : List Char) : Option (String × List Char) :=
  let isSchemeChar (c : Char) : Bool := c.isAlphanum || c == '+' || c == '-' || c == '.'
  match cs.takeWhile isSchemeChar, cs.dropWhile isSchemeChar with
  | first :: name, ':' :: rest =>
    if first.isAlpha then some (String.ofList ((first :: name).map Char.toLower), rest) else none
  | _, _ => none

def endsPath (c : Char) : Bool := c == '?' || c == '#'

def endsAuthority (special : Bool) (c : Char) : Bool :=
  c == '/' || endsPath c || (special && c == '\\')

def fragmentOf (cs : List Char) : String := String.ofList (escape fragmentSet cs)

/-- Query and fragment, from the sign of the first of them on. -/
def queryAndFragment (special : Bool) (cs : List Char) : Option String × Option String :=
  match cs with
  | '?' :: cs =>
    let set := if special then specialQuerySet else querySet
    let query := String.ofList (escape set (cs.takeWhile (· != '#')))
    match cs.dropWhile (· != '#') with
    | _ :: rest => (some query, some (fragmentOf rest))
    | [] => (some query, none)
  | '#' :: cs => (none, some (fragmentOf cs))
  | _ => (none, none)

def dropSlash (special : Bool) (cs : List Char) : List Char :=
  match cs with
  | '/' :: cs => cs
  | '\\' :: rest => if special then rest else cs
  | _ => cs

/-- A URL from its scheme, its authority, and the text of a rooted path with what follows it. -/
def withRooted (scheme : String) (authority : Option Authority) (cs : List Char) : Url :=
  let special := isSpecial scheme
  let file := scheme == "file"
  let written := cs.takeWhile fun c => !endsPath c
  let segments :=
    if written.isEmpty && !special then []
    else writtenSegments file special [] [] (dropSlash special written)
  let (query, fragment) := queryAndFragment special (cs.dropWhile fun c => !endsPath c)
  ⟨scheme, authority, .rooted (if file then trimEmpty segments else segments), query, fragment⟩

/-- User name and password as they are written, with the sign `@` unless both are empty. -/
def userText (cs : List Char) : String :=
  let name := cs.takeWhile (· != ':')
  let password := (cs.dropWhile (· != ':')).drop 1
  if name.isEmpty && password.isEmpty then ""
  else
    String.ofList (escape userSet name ++
      (if password.isEmpty then [] else ':' :: escape userSet password) ++ ['@'])

def splitUser? (cs : List Char) : Option (List Char × List Char) :=
  if cs.contains '@' then
    some (((cs.reverse.dropWhile (· != '@')).drop 1).reverse,
      (cs.reverse.takeWhile (· != '@')).reverse)
  else none

/-- A text split at the first colon that no square brackets enclose. -/
def splitPort (inBrackets : Bool) : List Char → List Char × Option (List Char)
  | [] => ([], none)
  | c :: cs =>
    if c == ':' && !inBrackets then ([], some cs)
    else
      let (host, digits) :=
        splitPort (if c == '[' then true else if c == ']' then false else inBrackets) cs
      (c :: host, digits)

/-- Reads the number after a host, which is left out when it is the scheme's own. -/
def portOf (scheme : String) (cs : List Char) : Except Fault (Option Nat) :=
  if cs.isEmpty then .ok none
  else
    match if cs.all (·.isDigit) then digitsValue? 10 cs else none with
    | some n =>
      if n > 65535 then .error .portNumber
      else .ok (if defaultPort? scheme == some n then none else some n)
    | none => .error .portNumber

def authorityOf (scheme : String) (cs rest : List Char) : Except Fault Authority := do
  let special := isSpecial scheme
  let (user, hostPort) := (splitUser? cs).getD ([], cs)
  if cs.contains '@' && user.isEmpty && hostPort.isEmpty && !rest.isEmpty then
    throw .emptyHost
  let (hostText, portText) := splitPort false hostPort
  if hostText.isEmpty && (special || portText.isSome) then throw .emptyHost
  let host ← if special then specialHost hostText else otherHost hostText
  let portNumber ← portText.elim (.ok none) (portOf scheme)
  let user := userText user
  if host.isEmpty && !user.isEmpty then throw .emptyHost
  return { user, host, portNumber }

def withAuthority (scheme : String) (cs : List Char) : Except Fault Url := do
  let ends := endsAuthority (isSpecial scheme)
  let rest := cs.dropWhile fun c => !ends c
  let authority ← authorityOf scheme (cs.takeWhile fun c => !ends c) rest
  return withRooted scheme (some authority) rest

/-- Reads the host and the path of a file URL. A drive letter is no host, and a path that starts with
one has none. -/
def withFileHost (cs : List Char) : Except Fault Url := do
  let isEnd (c : Char) : Bool := endsAuthority true c
  let hostText := cs.takeWhile fun c => !isEnd c
  if isDriveLetter hostText then return withRooted "file" (some {}) cs
  let host ← if hostText.isEmpty then pure "" else specialHost hostText
  let url := withRooted "file" (some {}) (cs.dropWhile fun c => !isEnd c)
  let driveFirst :=
    match url.path with
    | .rooted (first :: _) => isDriveLetter first.toList
    | _ => false
  let host := if host == "localhost" || driveFirst then "" else host
  return { url with authority := some { host } }

def fileUrl (cs : List Char) : Except Fault Url :=
  let isSlash (c : Char) : Bool := c == '/' || c == '\\'
  match cs with
  | a :: b :: rest =>
    if isSlash a && isSlash b then withFileHost rest else .ok (withRooted "file" (some {}) cs)
  | _ => .ok (withRooted "file" (some {}) cs)

def afterScheme (scheme : String) (cs : List Char) : Except Fault Url :=
  if scheme == "file" then fileUrl cs
  else if isSpecial scheme then
    withAuthority scheme (cs.dropWhile fun c => c == '/' || c == '\\')
  else
    match cs with
    | '/' :: '/' :: rest => withAuthority scheme rest
    | '/' :: _ => .ok (withRooted scheme none cs)
    | _ =>
      let (query, fragment) := queryAndFragment false (cs.dropWhile fun c => !endsPath c)
      let path := escape controlSet (cs.takeWhile fun c => !endsPath c)
      .ok ⟨scheme, none, .rootless (String.ofList path), query, fragment⟩

def parse (text : String) : Except Fault Url :=
  match scheme? (cleaned text) with
  | none => .error .relative
  | some (scheme, rest) => afterScheme scheme rest

def parse? (text : String) : Option Url := (parse text).toOption

end ScriptIndex.Url
