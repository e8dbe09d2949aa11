import Gateway.Text.Utf8

/-!
# Locators

What stands between the method and the version of a request. A locator is a path with a query and
a fragment behind it, a star, or an authority alone; or it is absolute, with a scheme and an
authority before the path. Only the path of it matters to the gateway, but a request whose locator
is none of these cannot be sent at all.

An authority is read from left to right. What stands before an at sign names a user, so colons and
percent signs before it are forgotten; so are those in brackets, as they belong to an address. At
the end there may be one colon, before the port, and no percent sign. A fragment is cut off before
anything in it is looked at.

## Main definitions

* `Http.Locator.isPathChar`, `Http.Locator.isQueryChar`: What may stand in a path and in a query.
* `Http.Locator.Authority.scan`: What follows an authority.
* `Http.Locator.path?`: The path of a locator.
-/

namespace Gateway

namespace Http

namespace Locator

/-- Whether a character may stand in a path. -/
def isPathChar (c : Char) : Bool :=
  0x20 < c.toNat && !(['<', '>', '\x60', '\x7f'].contains c)

/-- Whether a character may stand in a query. -/
def isQueryChar (c : Char) : Bool :=
  0x20 < c.toNat && !(['<', '>', '"', '\x7f'].contains c)

/-- Whether a character may stand in an authority, percent signs aside. -/
def isAuthorityChar (c : Char) : Bool :=
  c.isAlphanum || ['!', '$', '&', '\x27', '(', ')', '*', '+', ',', '-', '.', ':', ';', '=', '@', '[',
    ']', '_', '~'].contains c

/-- Whether a character may stand in a scheme. -/
def isSchemeChar (c : Char) : Bool :=
  c.isAlphanum || ['+', '-', '.', '~'].contains c

/-- Whether a character ends what stands before a path, a query or a fragment. -/
def isBoundary (c : Char) : Bool :=
  c == '/' || c == '?' || c == '#'

/-- The most octets of a locator. -/
def maxLength : Nat := 65534

/-- The most characters of a scheme. -/
def maxScheme : Nat := 64

/-- The most colons in a row of an authority without brackets or at signs between them. -/
def maxColons : Nat := 8

/-- What has been seen of an authority. -/
structure Authority where
  colons : Nat := 0
  -- Whether an address in brackets has begun.
  isOpened : Bool := false
  isClosed : Bool := false
  hasPercent : Bool := false
  -- Whether the last character is an at sign.
  isAfterUser : Bool := false
  deriving DecidableEq, Repr

namespace Authority

/-- What has been seen after one more character, if it may stand there. -/
def step (a : Authority) (c : Char) : Option Authority :=
  let a := { a with isAfterUser := c == '@' }
  if c = ':' then if a.colons < maxColons then some { a with colons := a.colons + 1 } else none
  else if c = '[' then
    if a.hasPercent || a.isOpened then none else some { a with isOpened := true }
  -- What counts is what stands behind the brackets, and behind an at sign.
  else if c = ']' then
    if !a.isOpened || a.isClosed then none
    else some { a with isClosed := true, colons := 0, hasPercent := false }
  else if c = '@' then some { a with colons := 0, hasPercent := false }
  else if c = '%' then some { a with hasPercent := true }
  else if isAuthorityChar c then some a
  else none

/-- Whether an authority may end here. -/
def isWhole (a : Authority) : Bool :=
  a.isOpened == a.isClosed && a.colons ≤ 1 && !a.isAfterUser && !a.hasPercent

/-- What follows an authority, if it is one. -/
def scan : Authority → List Char → Option (List Char)
  | a, [] => if a.isWhole then some [] else none
  | a, c :: cs =>
    if isBoundary c then if a.isWhole then some (c :: cs) else none
    else (a.step c).bind fun a => scan a cs

end Authority

/-- The path at the front of a locator without scheme and authority, if no character in it or in
    the query is out of place. -/
def readPath (cs : List Char) : Option String :=
  let path := cs.takeWhile fun c => c != '?' && c != '#'
  let query := match cs.drop path.length with
    | '?' :: rest => rest.takeWhile (· != '#')
    | _ => []
  if path.all isPathChar && query.all isQueryChar then some (String.ofList path) else none

/-- What a locator starts with. -/
inductive Scheme where
  | absent
  -- A scheme, and what follows it.
  | present (rest : List Char)
  | tooLong

/-- The scheme at the front of a locator. -/
def readScheme (cs : List Char) : Scheme :=
  let scheme := cs.takeWhile isSchemeChar
  match cs.drop scheme.length with
  | ':' :: '/' :: '/' :: rest => if maxScheme < scheme.length then .tooLong else .present rest
  | _ => .absent

/-- The path of a locator with a scheme or an authority in front. -/
def readFull (cs : List Char) : Option String :=
  match readScheme cs with
  | .tooLong => none
  | .absent => if Authority.scan {} cs = some [] then some "" else none
  | .present rest =>
    match Authority.scan {} rest with
    | none => none
    | some after =>
      -- There has to be an authority behind a scheme.
      if after.length = rest.length then none
      else (readPath after).map fun path => if path.isEmpty then "/" else path

/-- The path of a locator. An authority alone has an empty one. -/
def path? (s : String) : Option String :=
  if maxLength < s.utf8ByteSize then none
  else match s.toList with
    | [] => none
    | ['*'] => some "*"
    | '/' :: rest => readPath ('/' :: rest)
    | cs => readFull cs

end Locator

end Http

end Gateway
