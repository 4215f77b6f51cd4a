import InkServer.Text.Split
import InkServer.Text.Quoted

/-!
# Addresses in brackets

The host of a URI may stand in square brackets only if it is an IPv6 address or an address of a later
version, which starts with `v`.
-/

namespace InkServer.Uri

/-- Why a text in brackets is refused. -/
inductive HostError where
  | badFutureAddress
  | shortAddress
  | noAddress (text : String)
  deriving DecidableEq, Repr

def HostError.message : HostError → String
  | .badFutureAddress => "IPvFuture address is invalid"
  | .shortAddress => "An IPv4 address cannot be in brackets"
  | .noAddress text => Text.quoted text ++ " does not appear to be an IPv4 or IPv6 address"

def isHexDigit (c : Char) : Bool :=
  ('0' ≤ c && c ≤ '9') || ('a' ≤ c && c ≤ 'f') || ('A' ≤ c && c ≤ 'F')

def isDecimalDigit (c : Char) : Bool := '0' ≤ c && c ≤ '9'

/-- A number from 0 to 255 without leading zeros. -/
def isOctet (cs : List Char) : Bool :=
  !cs.isEmpty && cs.all isDecimalDigit && cs.length ≤ 3 && (cs.length == 1 || cs.head? != some '0') &&
    cs.foldl (fun n c => 10 * n + (c.toNat - 48)) 0 ≤ 255

/-- Four octets. -/
def isShortAddress (cs : List Char) : Bool :=
  let octets := Text.pieces '.' cs
  octets.length == 4 && octets.all isOctet

/-- Up to four hexadecimal digits. -/
def isGroup (cs : List Char) : Bool := !cs.isEmpty && cs.length ≤ 4 && cs.all isHexDigit

/-- The groups of a long address, an address of four octets at the end counting as two. -/
def groupsOf (cs : List Char) : Option (List (List Char)) :=
  let groups := Text.pieces ':' cs
  let last := groups.getLastD []
  if '.' ∈ last then
    if isShortAddress last then some (groups.dropLast ++ [['0'], ['0']]) else none
  else some groups

/-- Eight groups, or fewer with one gap written as two colons. -/
def areGroups (groups : List (List Char)) : Bool :=
  let inner := (groups.drop 1).dropLast
  let gaps := inner.countP List.isEmpty
  let first := (groups.headD []).isEmpty
  let last := (groups.getLastD []).isEmpty
  let full := groups.filter fun g => !g.isEmpty
  if groups.length < 3 || 9 < groups.length || 1 < gaps then false
  else if gaps == 0 then !first && !last && groups.length == 8 && groups.all isGroup
  else
    let before := (inner.takeWhile fun g => !g.isEmpty).length
    let after := inner.length - before - 1
    (!first || before == 0) && (!last || after == 0) && full.length < 8 && full.all isGroup

/-- A long address, with a zone behind a percent sign at most. -/
def isLongAddress (cs : List Char) : Bool :=
  let address := cs.takeWhile (· ≠ '%')
  let zone := cs.dropWhile (· ≠ '%')
  let zoneOk :=
    match zone with
    | [] => true
    | _ :: zone => !zone.isEmpty && '%' ∉ zone
  zoneOk && '/' ∉ cs &&
    match groupsOf address with
    | some groups => areGroups groups
    | none => false

/-- Whether a text is an address of a later version. -/
def isFutureAddress (cs : List Char) : Bool :=
  match cs with
  | 'v' :: rest =>
    match rest.dropWhile isHexDigit with
    | '.' :: tail => (rest.head?.map isHexDigit).getD false && !tail.isEmpty && '\n' ∉ tail
    | _ => false
  | _ => false

/-- What may stand in brackets. -/
def checkHost (cs : List Char) : Except HostError Unit :=
  if cs.head? = some 'v' then
    if isFutureAddress cs then .ok () else .error .badFutureAddress
  else if isShortAddress cs then .error .shortAddress
  else if isLongAddress cs then .ok ()
  else .error (.noAddress (String.ofList cs))

end InkServer.Uri
