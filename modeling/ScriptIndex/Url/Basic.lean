/-!
# URLs

A URL is kept in its parts, each already in the form in which it is written.
-/
namespace ScriptIndex

namespace Url

structure Authority where
  /-- User name and password with the sign `@`, or nothing. -/
  user : String := ""
  /-- The host, empty when there is none. -/
  host : String := ""
  portNumber : Option Nat := none
  deriving DecidableEq, Repr

inductive Path where
  /-- Segments, each after a slash. -/
  | rooted (segments : List String)
  /-- A path without a leading slash, which has no segments. -/
  | rootless (text : String)
  deriving DecidableEq, Repr

inductive Fault where
  | relative
  | emptyHost
  | domain
  | domainCharacter
  | portNumber
  | ipv4
  | ipv6
  deriving DecidableEq, Repr

def Fault.message : Fault → String
  | relative => "relative URL without a base"
  | emptyHost => "empty host"
  | domain => "invalid international domain name"
  | domainCharacter => "invalid domain character"
  | portNumber => "invalid port number"
  | ipv4 => "invalid IPv4 address"
  | ipv6 => "invalid IPv6 address"

end Url

structure Url where
  scheme : String
  authority : Option Url.Authority
  path : Url.Path
  query : Option String := none
  fragment : Option String := none
  deriving DecidableEq, Repr

namespace Url

/-- The schemes whose URLs always have a host and a rooted path. -/
def isSpecial (scheme : String) : Bool :=
  ["file", "http", "https", "ws", "wss", "ftp"].contains scheme

/-- The default of a scheme, which is not written. -/
def defaultPort? (scheme : String) : Option Nat :=
  match scheme with
  | "http" | "ws" => some 80
  | "https" | "wss" => some 443
  | "ftp" => some 21
  | _ => none

def Authority.text (a : Authority) : String :=
  "//" ++ a.user ++ a.host ++ a.portNumber.elim "" fun p => ":" ++ toString p

def segmentsText (segments : List String) : String := String.join (segments.map ("/" ++ ·))

/-- The text of a path. Without an authority a path that starts with two slashes is written with a
dot segment in front, lest its start be taken for an authority. -/
def Path.text (path : Path) (bare : Bool) : String :=
  match path with
  | rooted segments =>
    (if bare && segments.head? == some "" && segments.length > 1 then "/." else "") ++
      segmentsText segments
  | rootless text => text

def text (url : Url) : String :=
  url.scheme ++ ":" ++ url.authority.elim "" Authority.text ++ url.path.text url.authority.isNone ++
    url.query.elim "" ("?" ++ ·) ++ url.fragment.elim "" ("#" ++ ·)

end Url
end ScriptIndex
