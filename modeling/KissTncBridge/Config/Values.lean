import KissTncBridge.Config.Resolved

namespace KissTncBridge.Conf

/-- What the standard library's address parsers read, character by character. -/
abbrev Parser (α : Type) := List Char → Option (α × List Char)

namespace Parse

def digit (radix : Nat) (c : Char) : Option Nat :=
  let n := c.toNat
  let d : Option Nat :=
    if 48 ≤ n ∧ n ≤ 57 then some (n - 48)
    else if 97 ≤ n ∧ n ≤ 102 then some (n - 87)
    else if 65 ≤ n ∧ n ≤ 70 then some (n - 55)
    else none
  d.filter (· < radix)

/-- An unsigned number below `bound`: digits only, after an optional `+`. -/
def number (radix bound : Nat) (s : List Char) : Option Nat :=
  let digits := match s with
    | '+' :: rest => rest
    | _ => s
  if digits.isEmpty then none
  else do
    let n ← digits.foldlM (fun n c => (digit radix c).map (fun d => n * radix + d)) 0
    if n < bound then some n else none

def uint16 (s : String) : Option UInt16 := (number 10 UInt16.size s.toList).map Nat.toUInt16

def uint64 (s : String) : Option Nat := number 10 UInt64.size s.toList

def char (c : Char) : Parser Unit
  | x :: rest => if x = c then some ((), rest) else none
  | [] => none

/-- Leading digits: at most `maxDigits` of them if given, no superfluous
leading zero unless allowed, a value below `bound`. -/
def digits (radix : Nat) (maxDigits : Option Nat) (allowZero : Bool) (bound : Nat) : Parser Nat :=
  fun s =>
    let ds := s.takeWhile (fun c => (digit radix c).isSome)
    let n := ds.foldl (fun n c => n * radix + (digit radix c).getD 0) 0
    if ds.isEmpty ∨ maxDigits.any (· < ds.length) ∨
        (!allowZero ∧ ds.head? = some '0' ∧ 1 < ds.length) ∨ bound ≤ n then none
    else some (n, s.drop ds.length)

/-- What follows a separator, if this is not the first of its kind. -/
def separated (sep : Char) (index : Nat) (p : Parser α) : Parser α := fun s =>
  if index = 0 then p s else do
    let (_, s) ← char sep s
    p s

def ipv4 : Parser (BitVec 32) := fun s => do
  let (a, s) ← digits 10 (some 3) false 256 s
  let (b, s) ← separated '.' 1 (digits 10 (some 3) false 256) s
  let (c, s) ← separated '.' 2 (digits 10 (some 3) false 256) s
  let (d, s) ← separated '.' 3 (digits 10 (some 3) false 256) s
  some (BitVec.ofNat 32 (((a * 256 + b) * 256 + c) * 256 + d), s)

/-- Up to `limit` groups from the `i`-th on, with what is left and whether they
end in a dotted IPv4 address, which needs room for two groups. -/
def groups (limit : Nat) : Nat → List Char → List Nat × Bool × List Char
  | 0, s => ([], false, s)
  | left + 1, s =>
    let i := limit - (left + 1)
    match (if i + 1 < limit then separated ':' i ipv4 s else none) with
    | some (a, rest) => ([a.toNat / 65536, a.toNat % 65536], true, rest)
    | none =>
      match separated ':' i (digits 16 (some 4) true 65536) s with
      | some (g, rest) =>
        let (gs, dotted, rest) := groups limit left rest
        (g :: gs, dotted, rest)
      | none => ([], false, s)

def joinGroups (gs : List Nat) : BitVec 128 :=
  BitVec.ofNat 128 (gs.foldl (fun n g => n * 65536 + g) 0)

def ipv6 : Parser (BitVec 128) := fun s =>
  let (head, dotted, rest) := groups 8 8 s
  if head.length = 8 then some (joinGroups head, rest)
  else if dotted then none
  else do
    let (_, rest) ← char ':' rest
    let (_, rest) ← char ':' rest
    let limit := 8 - (head.length + 1)
    let (tail, _, rest) := groups limit limit rest
    let zeros := List.replicate (8 - head.length - tail.length) 0
    some (joinGroups (head ++ zeros ++ tail), rest)

def port : Parser UInt16 := fun s => do
  let (_, s) ← char ':' s
  let (n, s) ← digits 10 none true UInt16.size s
  some (n.toUInt16, s)

def scopeId : Parser UInt32 := fun s => do
  let (_, s) ← char '%' s
  let (n, s) ← digits 10 none true UInt32.size s
  some (n.toUInt32, s)

def socketAddrV4 : Parser SocketAddr := fun s => do
  let (ip, s) ← ipv4 s
  let (p, s) ← port s
  some (.v4 ip p, s)

def socketAddrV6 : Parser SocketAddr := fun s => do
  let (_, s) ← char '[' s
  let (ip, s) ← ipv6 s
  let (scope, s) := (scopeId s).getD (0, s)
  let (_, s) ← char ']' s
  let (p, s) ← port s
  some (.v6 ip p scope, s)

/-- The whole text, or nothing. -/
def whole (p : Parser α) (s : String) : Option α := do
  let (x, rest) ← p s.toList
  if rest.isEmpty then some x else none

def socketAddr (s : String) : Option SocketAddr :=
  whole (fun s => (socketAddrV4 s).or (socketAddrV6 s)) s

def ipAddr (s : String) : Option IpAddr :=
  whole (fun s => ((ipv4 s).map (fun x => (IpAddr.v4 x.1, x.2))).or
    ((ipv6 s).map (fun x => (IpAddr.v6 x.1, x.2)))) s

/-- The text before and after the last `:`. -/
def rsplitColon (s : String) : Option (String × String) :=
  let r := s.toList.reverse
  let after := r.takeWhile (· ≠ ':')
  match r.drop after.length with
  | [] => none
  | _ :: before => some (String.ofList before.reverse, String.ofList after.reverse)

/-- The parts between colons. -/
def splitColon (s : String) : List String :=
  (s.toList.splitOnP (· = ':')).map String.ofList

end Parse

def Mac.parse (s : String) : Except String Mac :=
  let parts := Parse.splitColon s
  let expected := Text.quoted s ++ " is not a MAC address (expected XX:XX:XX:XX:XX:XX)"
  if parts.length ≠ 6 then .error expected
  else do
    let n ← parts.foldlM (fun n p =>
      if p.utf8ByteSize ≠ 2 then .error expected
      else match Parse.number 16 256 p.toList with
        | some b => .ok (n * 256 + b)
        | none => .error (Text.quoted s ++ " is not a MAC address: bad octet " ++ Text.quoted p)) 0
    .ok ⟨BitVec.ofNat 48 n⟩

/-- An adapter value as written. -/
inductive AdapterValue where
  | id (id : String)
  | mac (m : Mac)
  | hci (name : String)
deriving DecidableEq, Repr

def isHciName (s : String) : Bool :=
  match s.toList with
  | 'h' :: 'c' :: 'i' :: n => !n.isEmpty && n.all Char.isDigit
  | _ => false

def AdapterValue.parse (s : String) : AdapterValue :=
  match Mac.parse s with
  | .ok m => .mac m
  | .error _ => if isHciName s then .hci s else .id s

def AdapterSel.text : AdapterSel → String
  | .default => "default adapter"
  | .mac m => Text.mac m
  | .hci h => h

/-- `127.0.0.1`. -/
def localhost : BitVec 32 := 0x7f000001#32

def Listen.parse (s : String) : Except String Listen :=
  let expected := Text.quoted s ++ " is not a TCP port number, address:port, or interface:port"
  match Parse.uint16 s, Parse.socketAddr s, Parse.rsplitColon s with
  | some port, _, _ => .ok (.addr (.v4 localhost port))
  | none, some sa, _ => .ok (.addr sa)
  | none, none, none => .error expected
  | none, none, some (name, port) =>
    match Parse.uint16 port with
    | none => .error (Text.quoted s ++ ": " ++ Text.quoted port ++ " is not a TCP port number")
    | some port =>
      if name.isEmpty || name.toList.contains ':' || name.toList.contains '/' then .error expected
      else match Parse.ipAddr name with
        | some (.v4 ip) => .ok (.addr (.v4 ip port))
        | some (.v6 ip) => .ok (.addr (.v6 ip port 0))
        | none => .ok (.interface name port)

def Listen.text : Listen → String
  | .addr a => Text.socketAddr a
  | .interface name port => name ++ ":" ++ toString port.toNat

/-- `90s`, `2m`, `1h`, `500ms`, or a bare number of seconds. The product of
minutes or hours wraps at 64 bits, as it does without overflow checks. -/
def parseDuration (s : String) : Except String Duration :=
  let s := Text.trim s
  let num := s.toList.takeWhile Char.isDigit
  let unit := String.ofList (Text.trimChars (s.toList.drop num.length))
  match Parse.uint64 (String.ofList num) with
  | none => .error (Text.quoted s ++ " is not a duration (e.g. 90s, 2m)")
  | some n =>
    if unit = "" ∨ unit = "s" then .ok (n * 1000)
    else if unit = "ms" then .ok n
    else if unit = "m" then .ok (n * 60 % UInt64.size * 1000)
    else if unit = "h" then .ok (n * 3600 % UInt64.size * 1000)
    else .error (Text.quoted s ++ " is not a duration (use ms, s, m or h)")

def MAX_ID_LEN : Nat := 15

/-- Ids use lowercase letters, digits and `-`, at most 15 characters. -/
def checkId (id what : String) : Except String Unit :=
  if id.isEmpty then .error (what ++ " id is empty")
  else if MAX_ID_LEN < id.utf8ByteSize then
    .error (what ++ " id " ++ Text.quoted id ++ " is longer than " ++ toString MAX_ID_LEN ++
      " characters")
  else if !id.toList.all (fun c => c.isLower || c.isDigit || c == '-') then
    .error (what ++ " id " ++ Text.quoted id ++ " may only use lowercase letters, digits and '-'")
  else .ok ()

/-- `host:port` for a `tcp-client`. The host may be a name. -/
def parseHostPort (s : String) : Except String (String × UInt16) :=
  match Parse.socketAddr s with
  | some addr => .ok (Text.ipAddr addr.ip, addr.port)
  | none =>
    match Parse.rsplitColon s with
    | none => .error (Text.quoted s ++ " is not host:port")
    | some (host, port) =>
      match Parse.uint16 port with
      | none => .error (Text.quoted s ++ ": " ++ Text.quoted port ++ " is not a TCP port number")
      | some p =>
        if host.isEmpty || host.toList.contains ':' then
          .error (Text.quoted s ++ " is not host:port (wrap IPv6 addresses in [])")
        else .ok (host, p)

/-- A model a config can name, and what it does. -/
structure ModelInfo where
  model : TncModel
  names : List String
  summary : String

def MODELS : List ModelInfo :=
  [⟨.generic, ["generic"],
      "the default: any TNC that's always in KISS mode; nothing is sent to it"⟩,
    ⟨.thD7x, ["th-d74", "th-d75"],
      "Kenwood TH-D74/D75: switched to KISS mode at every connect, checked for KISS on " ++
        "the right interface (menu 983), reconnected if it stops answering, and with " ++
        "exit_kiss_on_disconnect put back in the mode it was found in"⟩,
    ⟨.tdH9, ["td-h9"],
      "TIDRADIO TD-H9: KISS over BLE on TIDRADIO's own GATT service (af00) instead of " ++
        "the BLE KISS API's; otherwise like generic"⟩]

def TncModel.parse (s : String) : Except String TncModel :=
  match MODELS.find? (fun m => m.names.contains s) with
  | some m => .ok m.model
  | none => .error ("model " ++ Text.quoted s ++ " isn't a known model. The models are:" ++
      String.join (MODELS.map (fun m =>
        "\n  " ++ Text.padRight (String.intercalate ", " m.names) 16 ++ " " ++ m.summary)) ++
      "\nFor a TNC that isn't listed, use generic (or leave model out).")

end KissTncBridge.Conf
