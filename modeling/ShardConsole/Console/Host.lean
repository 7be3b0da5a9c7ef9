import ShardConsole.Text.Scanning
import Std.Net.Addr

/-!
# Hosts

How a host is written: as an address or as a name.

An IPv4 address is written as one to four numbers with points between them. Every
number but the last fills one octet and the last fills all octets that are left, so
that `127.1` is `127.0.0.1`. A number is decimal, octal after a `0`, or hexadecimal
after `0x`.

An IPv6 address is written as eight groups of up to four hexadecimal digits with
colons between them. Two colons in a row stand for the groups that are missing, all
of them zero and at least one; they may occur once. The last two groups may be
written as four decimal octets. A zone may follow after a percent sign; it is a
number and does not belong to the address.

Everything else is a name.

## Main definitions

* `Host`: An address or a name.
* `Host.ipv4?`, `Host.ipv6?`: The address that a text stands for.
* `Host.ofText`: The host that a text stands for.
* `Host.needsNoNetwork`: One can listen at the host without a network.
-/

namespace ShardConsole

open Std.Net (IPAddr IPv4Addr IPv6Addr)

/-- A host is given by its address or by its name. -/
inductive Host
  | address (address : IPAddr)
  | named (name : String)
deriving DecidableEq

namespace Host

/-- The number that a text of digits stands for in a base. -/
def digits? (base : Nat) (s : List Char) : Option Nat :=
  if s ≠ [] ∧ s.all (fun c => (Text.digitValue? c).any (· < base)) then
    some (Text.number base s)
  else none

/-- The number that a text stands for: decimal, octal after a zero, or hexadecimal after
    a zero and the letter x. -/
def number? (s : List Char) : Option Nat :=
  match s with
  | '0' :: 'x' :: rest => digits? 16 rest
  | '0' :: 'X' :: rest => digits? 16 rest
  | '0' :: _ => digits? 8 s
  | _ => digits? 10 s

/-- The number below `room` that numbers stand for: every number but the last fills the
    highest octet, and the last fills what is left. -/
def word? (room : Nat) (numbers : List Nat) : Option Nat :=
  match numbers with
  | [] => none
  | [n] => if n < room then some n else none
  | n :: rest =>
    if n < 256 ∧ 256 < room then (word? (room / 256) rest).map (n * (room / 256) + ·) else none

/-- The IPv4 address that a text stands for. -/
def ipv4? (s : List Char) : Option IPv4Addr := do
  let numbers ← (s.splitOnP (· = '.')).mapM number?
  let word := UInt32.ofNat (← word? UInt32.size numbers)
  return .ofParts (word >>> 24).toUInt8 (word >>> 16).toUInt8 (word >>> 8).toUInt8 word.toUInt8

/-- An octet, written in decimal digits with no zero in front. -/
def octet? (s : List Char) : Option Nat :=
  (Text.natural? s).filter fun n => n < 256 && (s.length == 1 || s.head? != some '0')

/-- The two groups that four octets with points between them stand for. -/
def octets? (s : List Char) : Option (List UInt16) := do
  match ← (s.splitOnP (· = '.')).mapM octet? with
  | [a, b, c, d] => return [UInt16.ofNat (256 * a + b), UInt16.ofNat (256 * c + d)]
  | _ => none

/-- A group, written in one to four hexadecimal digits. -/
def group? (s : List Char) : Option UInt16 :=
  if s.length ≤ 4 then (digits? 16 s).map UInt16.ofNat else none

/-- The groups that pieces stand for; the last piece may stand for two. -/
def groups? (pieces : List (List Char)) : Option (List UInt16) :=
  match pieces with
  | [] => some []
  | [last] => ((group? last).map fun g => [g]).or (octets? last)
  | piece :: rest => do return (← group? piece) :: (← groups? rest)

/-- The pieces of a text between its colons; the empty text has none. -/
def pieces (s : List Char) : List (List Char) :=
  if s = [] then [] else s.splitOnP (· = ':')

/-- What stands before and after the first two colons in a row. -/
def cut? (s : List Char) : Option (List Char × List Char) :=
  match s with
  | [] => none
  | ':' :: ':' :: rest => some ([], rest)
  | c :: rest => (cut? rest).map fun (front, back) => (c :: front, back)

/-- The IPv6 address with the given groups, if there are eight of them. -/
def ofGroups? (groups : List UInt16) : Option IPv6Addr :=
  if h : groups.length = 8 then some ⟨⟨groups.toArray, h⟩⟩ else none

/-- The IPv6 address that a text without a zone stands for. -/
def unzoned? (s : List Char) : Option IPv6Addr := do
  match cut? s with
  | none => ofGroups? (← groups? (pieces s))
  | some (front, back) =>
    let front ← (pieces front).mapM group?
    let back ← groups? (pieces back)
    let count := front.length + back.length
    if count < 8 then ofGroups? (front ++ List.replicate (8 - count) 0 ++ back) else none

/-- Whether a text is a percent sign and a zone, or empty. -/
def isZone (s : List Char) : Bool :=
  match s with
  | [] => true
  | _ :: zone => (Text.natural? zone).any (· < UInt32.size)

/-- The IPv6 address that a text stands for. -/
def ipv6? (s : List Char) : Option IPv6Addr :=
  if isZone (s.dropWhile (· ≠ '%')) then unzoned? (s.takeWhile (· ≠ '%')) else none

/-- The host that a text stands for. -/
def ofText (s : List Char) : Host :=
  match ipv4? s, ipv6? s with
  | some a, _ => .address (.v4 a)
  | none, some a => .address (.v6 a)
  | none, none => .named (String.ofList s)

/-- Whether one can listen at a host without a network. Nothing is known then that could
    speak against an IPv4 address. Of the IPv6 addresses only the unspecified one is
    there and those that hold an IPv4 address, and of the names only `localhost`, in
    letters of either case. -/
def needsNoNetwork (host : Host) : Bool :=
  match host with
  | .address (.v4 _) => true
  | .address (.v6 a) =>
    let groups := a.segments.toList
    groups == List.replicate 8 0 || groups.take 6 == [0, 0, 0, 0, 0, 0xFFFF]
  | .named name => name.toLower == "localhost"

end Host

end ShardConsole
