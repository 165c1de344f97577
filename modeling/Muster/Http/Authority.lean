/-
The authority of a web address: credentials, a host and a port. A host is an address of version 4
or 6, which has one normal form however it is written, or a name.
-/
import Muster.Http.Percent
import Muster.Net.Ip
import Muster.Net.Loose
import Muster.Text.Folded

namespace Muster.Http.Authority

/-! ## Hosts -/

/-- The pieces of a host between dots; a dot at the end does not count. -/
def labels (host : List Char) : List (List Char) :=
  let pieces := host.splitOn '.'
  if 1 < pieces.length && pieces.getLast? == some [] then pieces.dropLast else pieces

/-- Whether a host must be an address of version 4. -/
def endsInNumber (host : List Char) : Bool :=
  match (labels host).getLast? with
  | some label => (!label.isEmpty && label.all Digits.isDigit) || (Net.Loose.readPart label).isSome
  | none => false

def isForbidden (c : Char) : Bool :=
  c.toNat ≤ 0x20 || 0x7E < c.toNat || "#/:<>?@[\\]^|%".toList.contains c

/-- The characters that a written host means. Bytes may be spelled. -/
def meant (cs : List Char) : Option (List Char) := do
  some ((← (← Utf8.decode? (percentDecode cs)).mapM Text.fold?).flatten)

/-- An address of version 6 in its normal form, from the text behind the bracket that opens it. -/
def readV6 (cs : List Char) : Option (List Char) :=
  if cs.getLast? ≠ some ']' then none
  else
    match Ip.parse? (String.ofList cs.dropLast) with
    | some (.v6 bits) => some ('[' :: Ip.writeCompressed bits.toNat ++ [']'])
    | _ => none

/-- A host in its normal form. -/
def readHost : List Char → Option (List Char)
  | '[' :: cs => readV6 cs
  | cs => do
    let host ← meant cs
    if host.isEmpty || host.any isForbidden then none
    else if endsInNumber host then
      some (Ip.writeV4 (← Net.Loose.ofPieces (labels host)))
    else some host

/-- A colon and a port, or nothing for the usual port. -/
def readPort (usual : Nat) : List Char → Option (List Char)
  | [] | [':'] => some []
  | ':' :: ds => do
    let n ← Digits.read? ds
    if 65535 < n then none else some (if n = usual then [] else ':' :: Digits.write n)
  | _ => none

/-- The host that an authority begins with; a colon between brackets is its own. -/
def hostPart : List Char → List Char
  | '[' :: cs =>
    let inner := cs.takeWhile (· ≠ ']')
    if inner.length < cs.length then '[' :: inner ++ [']'] else '[' :: cs
  | cs => cs.takeWhile (· ≠ ':')

/-! ## Credentials -/

/-- The characters spelled as bytes in credentials. -/
def credentialSet : List Char :=
  [' ', '"', '#', '<', '>', '?', '\x60', '\x7b', '\x7d', '/', ':', ';', '=', '@', '[', '\\', ']',
    '^', '|']

/-- What stays of credentials. A name that spells a text leaves with its password, and so does a
password without a name; bytes that spell no text stay. -/
def keptCredentials (cs : List Char) : List Char :=
  let name := percentEncode credentialSet (cs.takeWhile (· ≠ ':'))
  let password := percentEncode credentialSet ((cs.dropWhile (· ≠ ':')).drop 1)
  let telling := if name.isEmpty then password else name
  if (Utf8.decode? (percentDecode telling)).isSome then []
  else name ++ (if password.isEmpty then [] else ':' :: password) ++ ['@']

/-- An authority in its normal form. -/
def read (usual : Nat) (cs : List Char) : Option (List Char) :=
  let rest := (cs.reverse.takeWhile (· ≠ '@')).reverse
  let credentials := cs.take (cs.length - rest.length - 1)
  let host := hostPart rest
  do some (keptCredentials credentials ++ (← readHost host) ++
    (← readPort usual (rest.drop host.length)))

end Muster.Http.Authority
