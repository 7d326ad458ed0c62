import Mathlib
import KissTncBridge.Config.Values

namespace KissTncBridge.Control
open Conf

/-- Nanoseconds since 1970-01-01. -/
abbrev SystemTime := Int

def NANOS : Int := 1000000000

namespace Text

/-- Decimal digits of an integer, with zeros in front up to a width. -/
def padded (width : Nat) (n : Int) : List Char :=
  let sign := if n < 0 then ['-'] else []
  let digits := Nat.toDigits 10 n.natAbs
  sign ++ List.replicate (width - sign.length - digits.length) '0' ++ digits

end Text

/-- An `i64` in text: digits after an optional sign. -/
def parseInt64 (s : List Char) : Option Int :=
  match s with
  | '-' :: rest =>
    if rest.head? = some '+' then none
    else (Parse.number 10 (2 ^ 63 + 1) rest).map (fun n => -(n : Int))
  | _ => (Parse.number 10 (2 ^ 63) s).map Int.ofNat

/-- RFC 3339 in UTC, to the second: `2026-10-12T14:02:11Z`. The civil date is from
the days since 1970-01-01. No operand of a division is negative. -/
def rfc3339 (t : SystemTime) : String :=
  let secs := if 0 ≤ t then t / NANOS else 0
  let days := secs / 86400
  let rem := secs % 86400
  let z := days + 719468
  let era := z / 146097
  let doe := z % 146097
  let yoe := (doe - doe / 1460 + doe / 36524 - doe / 146096) / 365
  let doy := doe - (365 * yoe + yoe / 4 - yoe / 100)
  let mp := (5 * doy + 2) / 153
  let day := doy - (153 * mp + 2) / 5 + 1
  let month := if mp < 10 then mp + 3 else mp - 9
  let year := yoe + era * 400 + if month ≤ 2 then 1 else 0
  String.ofList
    (Text.padded 4 year ++ ['-'] ++ Text.padded 2 month ++ ['-'] ++ Text.padded 2 day ++ ['T'] ++
      Text.padded 2 (rem / 3600) ++ [':'] ++ Text.padded 2 (rem % 3600 / 60) ++ [':'] ++
      Text.padded 2 (rem % 60) ++ ['Z'])

/-- A time as the daemon writes it. The text is read byte by byte: what is not ASCII
is in no number. -/
def parseRfc3339 (s : String) : Option SystemTime :=
  let b := (s.toList.flatMap String.utf8EncodeChar).map (fun x => Char.ofNat x.toNat)
  if b.length ≠ 20 ∨ b[4]? ≠ some '-' ∨ b[7]? ≠ some '-' ∨ b[10]? ≠ some 'T' ∨
      b[19]? ≠ some 'Z' then none
  else do
    let n := fun i j => parseInt64 ((b.take j).drop i)
    let y ← n 0 4
    let m ← n 5 7
    let d ← n 8 10
    let hh ← n 11 13
    let mm ← n 14 16
    let ss ← n 17 19
    let y := if m ≤ 2 then y - 1 else y
    let era := y / 400
    let yoe := y - era * 400
    let mp := (m + 9) % 12
    let doy := (153 * mp + 2) / 5 + d - 1
    let doe := yoe * 365 + yoe / 4 - yoe / 100 + doy
    let days := era * 146097 + doe - 719468
    let secs := days * 86400 + hh * 3600 + mm * 60 + ss
    if secs < 0 then none else some (secs * NANOS)

end KissTncBridge.Control
