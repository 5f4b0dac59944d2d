import JobSearch.Url.Basic

/-!
# Reading URLs

An absolute URL is read from left to right: scheme, authority, path, query and fragment. White space
and control characters around the text and tabs and line breaks inside it do not count.
-/

namespace JobSearch.Url

/-- A control character or a space. -/
def isMargin (c : Char) : Bool := c.toNat ≤ 0x20

/-- The characters of a text that count. -/
def significant (t : Text) : Text :=
  (((t.dropWhile isMargin).reverse.dropWhile isMargin).reverse).filter fun c =>
    !(c == '\t' || c == '\n' || c == '\r')

/-! ## Scheme -/

/-- An ASCII letter. -/
def isLetter (c : Char) : Bool := c.isAlpha

/-- A character that may follow the first one of a scheme. -/
def isInScheme (c : Char) : Bool := c.isAlphanum || c == '+' || c == '-' || c == '.'

/-- Splits a scheme off, in small letters, with what follows its colon. -/
def splitScheme? (t : Text) : Option (Text × Text) :=
  match t with
  | [] => none
  | c :: _ =>
    if !isLetter c then none
    else
      match t.span isInScheme with
      | (scheme, ':' :: r) => some (Text.lower scheme, r)
      | _ => none

/-! ## Path -/

/-- The segment is a step to itself. -/
def isDot (s : Text) : Bool := Text.lower s == ".".toList || Text.lower s == "%2e".toList

/-- The segment is a step to its parent. -/
def isDotDot (s : Text) : Bool :=
  ["..".toList, ".%2e".toList, "%2e.".toList, "%2e%2e".toList].contains (Text.lower s)

/-- The segment is a drive: a letter and a colon or a bar. -/
def isDrive (s : Text) : Bool :=
  match s with
  | [c, d] => isLetter c && (d == ':' || d == '|')
  | _ => false

/-- A step to the parent removes the last segment unless it is a drive. -/
def dropParent (done : List Text) : List Text :=
  match done.getLast? with
  | none => done
  | some s => if isDrive s then done else done.dropLast

/-- Collects segments and takes the steps among them. -/
def walk : (done : List Text) → List Text → List Text
  | done, [] => done
  | done, [s] =>
    if isDotDot s then dropParent done ++ [[]] else if isDot s then done ++ [[]] else done ++ [s]
  | done, s :: t :: more =>
    if isDotDot s then walk (dropParent done) (t :: more)
    else if isDot s then walk done (t :: more)
    else walk (done ++ [s]) (t :: more)

/-- A slash, or for a special scheme a backslash. -/
def isSlash (special : Bool) (c : Char) : Bool := c == '/' || (special && c == '\\')

/-- The path of the segments of a text without its first slash. -/
def segmentsOf (special : Bool) (t : Text) : List Text :=
  walk [] ((t.splitOnP (isSlash special)).map (Percent.encode Percent.keptInPath))

/-- Drops empty segments in front, but never the last segment. -/
def dropLeadingEmpty : List Text → List Text
  | [] :: s :: more => dropLeadingEmpty (s :: more)
  | ss => ss

/-- The first segment of a file path, if it is a drive, is written with a colon. -/
def normalizeDrive : List Text → List Text
  | [c, '|'] :: more => if isLetter c then [c, ':'] :: more else [c, '|'] :: more
  | ss => ss

/-- The first segment is a drive. -/
def startsWithDrive (ss : List Text) : Bool := (ss.head?.map isDrive).getD false

/-! ## Authority -/

/-- The text up to the path, the query or the fragment, and the rest. -/
def splitAuthority (special : Bool) (t : Text) : Text × Text :=
  t.span fun c => !(isSlash special c || c == '?' || c == '#')

/-- Splits at the last `@`, if there is one. -/
def splitUser? : Text → Option (Text × Text)
  | [] => none
  | c :: r =>
    match splitUser? r with
    | some (user, host) => some (c :: user, host)
    | none => if c = '@' then some ([], r) else none

/-- Splits a host off its port at the first colon outside brackets. -/
def splitPort : (inside : Bool) → Text → Text × Option Text
  | _, [] => ([], none)
  | inside, c :: r =>
    if c = ':' && !inside then ([], some r)
    else
      let inside := if c = '[' then true else if c = ']' then false else inside
      let (host, port) := splitPort inside r
      (c :: host, port)

/-- Reads a port; the usual one of the scheme is left out. -/
def readPort (scheme : Text) (digits : Text) : Except Error (Option Nat) :=
  match Text.toNat? digits with
  | none => .ok none
  | some n =>
    if 65535 < n then .error .invalidPort
    else .ok (if hostSchemes.contains (scheme, n) then none else some n)

/-- The digits of a port and what follows them, which must be nothing or a backslash. -/
def portDigits (t : Text) : Except Error (Text × Text) :=
  match t.span Char.isDigit with
  | (digits, []) => .ok (digits, [])
  | (digits, '\\' :: r) => .ok (digits, '\\' :: r)
  | (_, _) => .error .invalidPort

/-- The name and the password of a login, escaped. -/
def readLogin (login : Text) : Text × Text :=
  let (user, password) := (Text.cutAt? [':'] login).getD (login, [])
  (Percent.encode Percent.keptInUser user, Percent.encode Percent.keptInUser password)

/-- Reads the authority at the start of a text; the path, query and fragment are left. -/
def readAuthority (idna : Idna) (scheme : Text) (t : Text) : Except Error (Authority × Text) :=
  let special := isSpecial scheme
  let (front, rest) := splitAuthority special t
  let login := splitUser? front
  let (user, password) := (login.map fun l => readLogin l.1).getD ([], [])
  let (hostText, port?) := splitPort false ((login.map (·.2)).getD front)
  if hostText.isEmpty &&
      (special || port?.isSome || !user.isEmpty || !password.isEmpty ||
        (login == some ([], []) && !rest.isEmpty)) then
    .error .emptyHost
  else
    match (if special then specialHost idna hostText else plainHost hostText) with
    | .error e => .error e
    | .ok host =>
      match portDigits (port?.getD []) with
      | .error e => .error e
      | .ok (digits, after) =>
        (readPort scheme digits).map fun port => (⟨user, password, host, port⟩, after ++ rest)

/-! ## Whole texts -/

/-- Reads the query and the fragment that follow a path. -/
def withTail (u : Url) (tail : Text) : Url :=
  let special := isSpecial u.scheme
  let (query, rest) := tail.span (· != '#')
  let query := match query with
    | '?' :: q => some (Percent.encode (Percent.keptInQuery special) q)
    | _ => none
  let fragment := match rest with
    | '#' :: f => some (Percent.encode Percent.keptInFragment f)
    | _ => none
  { u with query, fragment }

/-- The text up to the query or the fragment, and the rest. -/
def splitPath (t : Text) : Text × Text := t.span fun c => !(c == '?' || c == '#')

/-- The text without its first character if that is a slash. -/
def dropSlash (special : Bool) (t : Text) : Text :=
  match t with
  | [] => []
  | c :: r => if isSlash special c then r else c :: r

/-- Reads what follows the two slashes of a URL that is no file. -/
def afterSlashes (idna : Idna) (scheme : Text) (t : Text) : Except Error Url :=
  let special := isSpecial scheme
  match readAuthority idna scheme t with
  | .error e => .error e
  | .ok (authority, rest) =>
    let (pathText, tail) := splitPath rest
    let segments :=
      if pathText.isEmpty && !special then [] else segmentsOf special (dropSlash special pathText)
    .ok (withTail ⟨scheme, some authority, .segments segments, none, none⟩ tail)

/-- Reads what follows the scheme of a URL that is not special. -/
def afterPlainScheme (idna : Idna) (scheme : Text) (t : Text) : Except Error Url :=
  match t with
  | '/' :: '/' :: r => afterSlashes idna scheme r
  | '/' :: r =>
    let (pathText, tail) := splitPath r
    .ok (withTail ⟨scheme, none, .segments (segmentsOf false pathText), none, none⟩ tail)
  | r =>
    let (pathText, tail) := splitPath r
    let path := Path.plain (Percent.encode Percent.notControl pathText)
    .ok (withTail ⟨scheme, none, path, none, none⟩ tail)

/-- A file on a host. The host of a path that starts with a drive is dropped. -/
def fileOn (host : Host) (rest : Text) : Url :=
  let (pathText, tail) := splitPath rest
  let segments := normalizeDrive (segmentsOf true (dropSlash true pathText))
  let host := if startsWithDrive segments then .name [] else host
  let path := .segments (dropLeadingEmpty segments)
  withTail ⟨fileScheme, some ⟨[], [], host, none⟩, path, none, none⟩ tail

/-- Reads what follows the scheme of a file. -/
def afterFileScheme (idna : Idna) (t : Text) : Except Error Url :=
  match t with
  | c :: d :: r =>
    if isSlash true c && isSlash true d then
      let (hostText, rest) := splitAuthority true r
      if hostText.isEmpty then .ok (fileOn (.name []) rest)
      else if isDrive hostText then .ok (fileOn (.name []) r)
      else
        match specialHost idna hostText with
        | .error e => .error e
        | .ok host =>
          .ok (fileOn (if host = .name "localhost".toList then .name [] else host) rest)
    else .ok (fileOn (.name []) (c :: d :: r))
  | r => .ok (fileOn (.name []) r)

/-- Reads an absolute URL. -/
def parse (idna : Idna) (t : Text) : Except Error Url :=
  match splitScheme? (significant t) with
  | none => .error .noScheme
  | some (scheme, r) =>
    if scheme = fileScheme then afterFileScheme idna r
    else if isSpecial scheme then afterSlashes idna scheme (r.dropWhile (isSlash true))
    else afterPlainScheme idna scheme r

end JobSearch.Url
