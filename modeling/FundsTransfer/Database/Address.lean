import FundsTransfer.Store.Error
import FundsTransfer.Text.Digits

/-!
# Addresses of databases

An address starts with a scheme and a colon.  If two slashes follow, a host comes next,
perhaps with a user in front of it and a port behind.  Blanks around an address do not
count, and neither do tabs and line ends in it.
-/

namespace FundsTransfer.Database

/-- Why an address cannot be understood. -/
inductive AddressError where
  /-- It has no scheme. -/
  | noScheme
  /-- It has a user or a port but no host. -/
  | noHost
  /-- Its host has a character that no host has. -/
  | invalidHost
  /-- Its port is no number, or too large. -/
  | invalidPort
deriving DecidableEq, Repr

/-- What people are told. -/
def AddressError.message : AddressError → String
  | noScheme => "relative URL without a base"
  | noHost => "empty host"
  | invalidHost => "invalid domain character"
  | invalidPort => "invalid port number"

namespace Address

/-- What counts of an address. -/
def clean (s : List Char) : List Char :=
  let inner := (s.dropWhile (·.toNat ≤ 0x20)).reverse.dropWhile (·.toNat ≤ 0x20)
  inner.reverse.filter fun c => c != '\t' && c != '\n' && c != '\r'

/-- What comes behind the scheme and its colon. -/
def behindScheme? (s : List Char) : Option (List Char) :=
  let isPart := fun c : Char => c.isAlphanum || c == '+' || c == '-' || c == '.'
  match s.head?, s.dropWhile isPart with
  | some c, ':' :: rest => if c.isAlpha then some rest else none
  | _, _ => none

/-- A user in front of a host, and what comes behind it. -/
def splitUser (s : List Char) : Option (List Char) × List Char :=
  match s.reverse.dropWhile (· != '@') with
  | [] => (none, s)
  | _ :: user => (some user.reverse, (s.reverse.takeWhile (· != '@')).reverse)

/-- A host, and what comes behind it.  Between square brackets a colon belongs to the host. -/
def splitHost (s : List Char) : List Char × List Char :=
  if s.head? == some '[' then
    let inside := s.takeWhile (· != ']')
    (inside ++ (s.drop inside.length).take 1, s.drop (inside.length + 1))
  else (s.takeWhile (· != ':'), s.dropWhile (· != ':'))

/-- Whether what is behind a host is a port, or nothing. -/
def isPort : List Char → Bool
  | [] => true
  | ':' :: ds => ds.all Char.isDigit && Text.digitsValue ds < 65536
  | _ => false

/-- Whether a character may stand in a host. -/
def isHostChar (c : Char) : Bool := !" #/<>?@\\^|\x00".toList.contains c

/-- Checks a host with what is around it. -/
def checkAuthority (s : List Char) : Except AddressError Unit :=
  let (user, behind) := splitUser s
  let (host, port) := splitHost behind
  if host.isEmpty && (user.isSome || !port.isEmpty) then .error .noHost
  else if !host.all isHostChar then .error .invalidHost
  else if !isPort port then .error .invalidPort
  else .ok ()

/-- Checks an address. -/
def check (s : String) : Except AddressError Unit :=
  match behindScheme? (clean s.toList) with
  | none => .error .noScheme
  | some ('/' :: '/' :: rest) =>
    checkAuthority (rest.takeWhile fun c => c != '/' && c != '?' && c != '#')
  | some _ => .ok ()

end Address

end FundsTransfer.Database
