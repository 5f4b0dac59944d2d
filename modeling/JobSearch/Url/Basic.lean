import JobSearch.Url.Host

/-!
# URLs

An absolute URL in its parts, each already escaped, and its text. A path is either a plain text or a
list of segments; the steps `.` and `..` are taken while segments are collected, so no path of
segments holds them.
-/

namespace JobSearch

/-- The path of a URL. -/
inductive Url.Path where
  /-- A path that does not start with a slash and is never taken apart. -/
  | plain (t : Text)
  /-- Segments, each with a slash in front. -/
  | segments (ss : List Text)
  deriving DecidableEq, Repr

/-- What stands between the two slashes and the path. -/
structure Url.Authority where
  /-- The user name. -/
  user : Text
  /-- The password, empty if there is none. -/
  password : Text
  /-- The host. -/
  host : Url.Host
  /-- The port, if it is not the usual one. -/
  port : Option Nat
  deriving DecidableEq, Repr

/-- An absolute URL. -/
structure Url where
  /-- The scheme in small letters. -/
  scheme : Text
  /-- The authority, if there is one. -/
  authority : Option Url.Authority
  /-- The path. -/
  path : Url.Path
  /-- The query after the question mark, if there is one. -/
  query : Option Text
  /-- The fragment after the hash sign, if there is one. -/
  fragment : Option Text
  deriving DecidableEq, Repr

namespace Url

/-- The schemes that need a host, with their usual ports. -/
def hostSchemes : List (Text × Nat) :=
  [("http".toList, 80), ("https".toList, 443), ("ws".toList, 80), ("wss".toList, 443),
    ("ftp".toList, 21)]

/-- The scheme of files. -/
def fileScheme : Text := "file".toList

/-- A special scheme has a host in front of its path and takes a backslash for a slash. -/
def isSpecial (scheme : Text) : Bool := scheme == fileScheme || hostSchemes.any (·.1 == scheme)

/-- The text of a path. -/
def Path.toText : Path → Text
  | .plain t => t
  | .segments ss => ss.flatMap ('/' :: ·)

/-- The text of an authority. -/
def Authority.toText (a : Authority) : Text :=
  a.user ++ (if a.password.isEmpty then [] else ':' :: a.password) ++
    (if a.user.isEmpty && a.password.isEmpty then [] else ['@']) ++
    a.host.toText ++ (a.port.elim [] fun n => ':' :: Text.ofNat n)

/-- A path without authority that starts with an empty segment is written with a dot in front, so
that its slashes are not taken for those of an authority. -/
def hierarchy (u : Url) : Text :=
  match u.authority with
  | some a => "//".toList ++ a.toText ++ u.path.toText
  | none =>
    if "//".toList.isPrefixOf u.path.toText then "/.".toList ++ u.path.toText else u.path.toText

/-- The text of a URL. -/
def toText (u : Url) : Text :=
  u.scheme ++ ':' :: u.hierarchy ++ (u.query.elim [] ('?' :: ·)) ++ (u.fragment.elim [] ('#' :: ·))

/-- The URL with another query. -/
def withQuery (u : Url) (query : Text) : Url :=
  { u with query := some (Percent.encode (Percent.keptInQuery (isSpecial u.scheme)) query) }

end Url

end JobSearch
