import Mathlib.Data.List.Basic

namespace KissTncBridge

/-- A Bluetooth address, as its six bytes. -/
structure Mac where
  bytes : BitVec 48
deriving DecidableEq, Repr

inductive IpAddr where
  | v4 (bits : BitVec 32)
  | v6 (bits : BitVec 128)
deriving DecidableEq, Repr

namespace IpAddr

def isUnspecified : IpAddr → Bool
  | v4 b => b == 0
  | v6 b => b == 0

def isLoopback : IpAddr → Bool
  | v4 b => b >>> 24 == 127
  | v6 b => b == 1

/-- An IPv4 address in `::ffff:0:0/96` is the IPv4 address itself. -/
def toIpv4Mapped : IpAddr → Option IpAddr
  | v4 _ => none
  | v6 b => if b >>> 32 == 0xffff then some (v4 (b.truncate 32)) else none

end IpAddr

/-- An address with a port. An IPv6 address comes with its scope; its flow
label has no text form and no part in what is modelled here. -/
inductive SocketAddr where
  | v4 (ip : BitVec 32) (port : UInt16)
  | v6 (ip : BitVec 128) (port : UInt16) (scopeId : UInt32)
deriving DecidableEq, Repr

namespace SocketAddr

def ip : SocketAddr → IpAddr
  | v4 a _ => .v4 a
  | v6 a _ _ => .v6 a

def port : SocketAddr → UInt16
  | v4 _ p => p
  | v6 _ p _ => p

end SocketAddr

/-- A network of addresses. Which addresses it holds is for the `ipnet` crate
to say. -/
structure IpNet where
  addr : IpAddr
  bits : Nat
deriving DecidableEq, Repr

namespace Text

def hexDigit (n : Nat) : Char :=
  if n < 10 then Char.ofNat (n + 48) else Char.ofNat (n + 55)

/-- Two upper-case hexadecimal digits. -/
def hexByte (n : Nat) : String := String.ofList [hexDigit (n / 16), hexDigit (n % 16)]

/-- Lower-case hexadecimal without leading zeros. -/
def hex (n : Nat) : String := String.ofList (Nat.toDigits 16 n)

def mac (m : Mac) : String :=
  String.intercalate ":"
    ((List.range 6).map (fun i => hexByte ((m.bytes >>> (40 - 8 * i)).toNat % 256)))

def ipv4 (b : BitVec 32) : String :=
  String.intercalate "." ((List.range 4).map (fun i => toString ((b >>> (24 - 8 * i)).toNat % 256)))

def segments (b : BitVec 128) : List Nat :=
  (List.range 8).map (fun i => (b >>> (112 - 16 * i)).toNat % 65536)

/-- Length of the run of zeros at the head. -/
def zeros : List Nat → Nat
  | 0 :: xs => zeros xs + 1
  | _ => 0

/-- Start and length of the first longest run of zeros. -/
def longestZeros (segs : List Nat) : Nat × Nat :=
  (List.range segs.length).foldl (fun best i =>
    let n := zeros (segs.drop i)
    if best.2 < n then (i, n) else best) (0, 0)

def joinHex (segs : List Nat) : String := String.intercalate ":" (segs.map hex)

/-- The text form of an IPv6 address: mapped IPv4 addresses are dotted, and
the first longest run of two or more zero groups is `::`. -/
def ipv6 (b : BitVec 128) : String :=
  match (IpAddr.v6 b).toIpv4Mapped with
  | some (.v4 a) => "::ffff:" ++ ipv4 a
  | _ =>
    let segs := segments b
    let (start, len) := longestZeros segs
    if 1 < len then joinHex (segs.take start) ++ "::" ++ joinHex (segs.drop (start + len))
    else joinHex segs

def socketAddr : SocketAddr → String
  | .v4 a p => ipv4 a ++ ":" ++ toString p.toNat
  | .v6 a p scope =>
    "[" ++ ipv6 a ++ (if scope = 0 then "" else "%" ++ toString scope.toNat) ++ "]:" ++
      toString p.toNat

def ipAddr : IpAddr → String
  | .v4 a => ipv4 a
  | .v6 a => ipv6 a

def ipNet (n : IpNet) : String := ipAddr n.addr ++ "/" ++ toString n.bits

/-- How a string literal would be written, quotes included. Characters that
are not printable beyond the control characters are left as they are. -/
def quoted (s : String) : String :=
  let escape (c : Char) : String :=
    if c = '"' then "\\\"" else if c = '\\' then "\\\\" else if c = '\n' then "\\n"
    else if c = '\r' then "\\r" else if c = '\t' then "\\t" else if c.toNat = 0 then "\\0"
    else if c.toNat < 32 ∨ (127 ≤ c.toNat ∧ c.toNat < 160) then "\\u\x7b" ++ hex c.toNat ++ "\x7d"
    else String.singleton c
  "\"" ++ String.join (s.toList.map escape) ++ "\""

/-- White space, as Unicode defines it. -/
def isWhite (c : Char) : Bool :=
  let n := c.toNat
  (9 ≤ n && n ≤ 13) || n == 0x20 || n == 0x85 || n == 0xa0 || n == 0x1680 ||
    (0x2000 ≤ n && n ≤ 0x200a) || n == 0x2028 || n == 0x2029 || n == 0x202f || n == 0x205f ||
    n == 0x3000

def trimChars (s : List Char) : List Char :=
  ((s.dropWhile isWhite).reverse.dropWhile isWhite).reverse

def trim (s : String) : String := String.ofList (trimChars s.toList)

def trimEnd (s : String) : String := String.ofList (s.toList.reverse.dropWhile isWhite).reverse

/-- Padded with spaces on the right. -/
def padRight (s : String) (width : Nat) : String :=
  s ++ String.ofList (List.replicate (width - s.length) ' ')

end Text

end KissTncBridge
