import ShardConsole.Console.Host

/-!
# Endpoints

Where a server listens: an address is written as a host and a port, with the last
colon between them.

A port is a decimal number of sixteen bits and may have one plus sign in front of
it. An IPv6 address may stand in brackets; the port has no sign then.

## Main definitions

* `Endpoint`: A host and a port.
* `Endpoint.parse?`: The endpoint that an address stands for.
-/

namespace ShardConsole

/-- A host and a port. -/
structure Endpoint where
  host : Host
  port : UInt16
deriving DecidableEq

namespace Endpoint

/-- What stands in brackets, if the whole text does. -/
def bracketed? (s : List Char) : Option (List Char) :=
  if s.head? = some '[' ∧ s.getLast? = some ']' then some s.tail.dropLast else none

/-- A number of sixteen bits as a port. -/
def port? (n : Nat) : Option UInt16 :=
  if n < UInt16.size then some (UInt16.ofNat n) else none

/-- The endpoint that a host and a port stand for. -/
def ofParts? (host port : List Char) : Option Endpoint := do
  match bracketed? host with
  | some inner =>
    return ⟨.address (.v6 (← Host.ipv6? inner)), ← port? (← Text.natural? port)⟩
  | none => return ⟨Host.ofText host, ← port? (← Text.unsigned? port)⟩

/-- The endpoint that an address stands for. -/
def parse? (address : String) : Option Endpoint :=
  let reversed := address.toList.reverse
  match reversed.dropWhile (· ≠ ':') with
  | [] => none
  | _ :: host => ofParts? host.reverse (reversed.takeWhile (· ≠ ':')).reverse

end Endpoint

end ShardConsole
