import Mathlib
import KissTncBridge.Ax25

namespace KissTncBridge.Proofs.Ax25Frames
open Ax25

def Legal (c : Char) : Prop := 'A' ≤ c ∧ c ≤ 'Z' ∨ '0' ≤ c ∧ c ≤ '9' ∨ c = ' '

/-- A well-formed address field: six shifted characters, not all of them spaces,
and a byte with the SSID and the flags. -/
structure Field where
  chars : List UInt8
  flags : UInt8
  six : chars.length = 6
  legal : ∀ b ∈ chars, Legal (shifted b)
  named : ∃ b ∈ chars, shifted b ≠ ' '

namespace Field

def bytes (f : Field) : List UInt8 := f.chars ++ [f.flags]

def last (f : Field) : Bool := f.flags &&& 0x01 == 1

def repeated (f : Field) : Bool := f.flags &&& 0x80 != 0

def ssid (f : Field) : UInt8 := (f.flags >>> 1) &&& 0x0F

/-- The callsign with its SSID, if it has one. -/
def text (f : Field) : String :=
  String.ofList ((f.chars.map shifted).filter (fun c => c != ' ')) ++
    if f.ssid ≠ 0 then "-" ++ toString f.ssid.toNat else ""

def marked (f : Field) : String := if f.repeated then f.text ++ "*" else f.text

end Field

def Ended (fields : List Field) : Prop :=
  ∃ init f, fields = init ++ [f] ∧ (∀ g ∈ init, g.last = false) ∧ f.last = true

/-- Address fields, and what follows them: a control byte at least. -/
structure Packet where
  fields : List Field
  control : UInt8
  after : List UInt8
  ended : Ended fields

namespace Packet

def bytes (p : Packet) : List UInt8 := p.fields.flatMap Field.bytes ++ p.control :: p.after

def header (p : Packet) : Header where
  destination := (p.fields[0]?).elim "" Field.text
  source := (p.fields[1]?).elim "" Field.text
  path := (p.fields.drop 2).map Field.marked

/-- What follows control and PID, in a UI or an I frame. -/
def info (p : Packet) : List UInt8 := if carriesInfo p.control then p.after.drop 1 else []

end Packet

theorem legal_iff (c : Char) : Legal c ↔ c = ' ' ∨ (c.isUpper || c.isDigit) = true := by
  simp only [Legal, Char.isUpper, Char.isDigit, Bool.or_eq_true, Bool.and_eq_true,
    decide_eq_true_eq, Char.le_def]
  constructor
  · intro h
    rcases h with h | h | h
    · exact .inr (.inl h)
    · exact .inr (.inr h)
    · exact .inl h
  · intro h
    rcases h with h | h | h
    · exact .inr (.inr h)
    · exact .inl h
    · exact .inr (.inl h)

theorem callsign_iff (bs : List UInt8) (call : List Char) :
    callsign bs = some call ↔
      (∀ b ∈ bs, Legal (shifted b)) ∧ call = (bs.map shifted).filter (fun c => c != ' ') := by
  induction bs generalizing call with
  | nil => simp [callsign, eq_comm]
  | cons b bs ih =>
    simp only [callsign, List.forall_mem_cons, legal_iff (shifted b), List.map_cons]
    by_cases hs : shifted b = ' '
    · simp [hs, ih]
    · by_cases hc : ((shifted b).isUpper || (shifted b).isDigit) = true
      · simp only [ne_eq, hs, not_false_eq_true, if_true, hc, Option.map_eq_some_iff, ih,
          bne_iff_ne, List.filter_cons_of_pos]
        constructor
        · intro ⟨rest, ⟨hl, hr⟩, he⟩
          exact ⟨⟨.inr trivial, hl⟩, by rw [← he, hr]⟩
        · intro ⟨⟨_, hl⟩, he⟩
          exact ⟨_, ⟨hl, rfl⟩, he.symm⟩
      · simp [hs, hc]

/-- An address is read exactly from a well-formed field. -/
theorem address_iff (chars : List UInt8) (flags : UInt8) (h6 : chars.length = 6) :
    address (chars ++ [flags]) = some (call, last, rep) ↔
      ∃ f : Field, f.chars = chars ∧ f.flags = flags ∧ call = f.text ∧ last = f.last ∧
      rep = f.repeated := by
  have htake : (chars ++ [flags]).take 6 = chars := by
    rw [← h6, List.take_left]
  have hget : (chars ++ [flags]).getD 6 0 = flags := by
    rw [List.getD_eq_getElem?_getD, ← h6, List.getElem?_concat_length, Option.getD_some]
  simp only [address, htake, hget, Option.bind_eq_bind, Option.bind_eq_some_iff, callsign_iff]
  constructor
  · intro ⟨cs, ⟨hl, hcs⟩, h⟩
    split at h
    · cases h
    · rename_i hne
      have hnamed : ∃ b ∈ chars, shifted b ≠ ' ' := by
        by_contra hn
        refine hne ?_
        rw [hcs, List.isEmpty_iff, List.filter_eq_nil_iff]
        intro c hc
        obtain ⟨b, hb, rfl⟩ := List.mem_map.mp hc
        intro hs
        exact hn ⟨b, hb, by simpa using hs⟩
      simp only [Option.some.injEq, Prod.mk.injEq] at h
      obtain ⟨h1, h2, h3⟩ := h
      exact ⟨⟨chars, flags, h6, hl, hnamed⟩, rfl, rfl, by rw [← h1, hcs]; rfl, h2.symm, h3.symm⟩
  · intro ⟨f, hf, hg, h1, h2, h3⟩
    subst hf hg h1 h2 h3
    refine ⟨_, ⟨f.legal, rfl⟩, ?_⟩
    have hne : ((f.chars.map shifted).filter (fun c => c != ' ')).isEmpty = false := by
      obtain ⟨b, hb, hs⟩ := f.named
      rw [List.isEmpty_eq_false_iff]
      exact List.ne_nil_of_mem (List.mem_filter.mpr ⟨List.mem_map_of_mem hb, by simpa using hs⟩)
    simp only [hne, Bool.false_eq_true, if_false]
    rfl

def entry (f : Field) : String × Bool := (f.text, f.repeated)

theorem six_bytes {chars : List UInt8} (h : chars.length = 6) :
    ∃ b₀ b₁ b₂ b₃ b₄ b₅, chars = [b₀, b₁, b₂, b₃, b₄, b₅] := by
  match chars, h with
  | [b₀, b₁, b₂, b₃, b₄, b₅], _ => exact ⟨b₀, b₁, b₂, b₃, b₄, b₅, rfl⟩

theorem addresses_field (acc : List (String × Bool)) (f : Field) (rest : List UInt8) :
    addresses acc (f.bytes ++ rest) =
      if f.last then some (acc ++ [entry f], rest)
      else if acc.length + 1 > 10 then none
      else addresses (acc ++ [entry f]) rest := by
  obtain ⟨b₀, b₁, b₂, b₃, b₄, b₅, hc⟩ := six_bytes f.six
  have ha : address [b₀, b₁, b₂, b₃, b₄, b₅, f.flags] = some (f.text, f.last, f.repeated) :=
    (address_iff [b₀, b₁, b₂, b₃, b₄, b₅] f.flags rfl).mpr ⟨f, hc, rfl, rfl, rfl, rfl⟩
  simp only [Field.bytes, hc, List.cons_append, List.nil_append, addresses, ha, Option.bind_eq_bind,
    Option.bind_some, List.length_append, List.length_singleton]
  rfl

/-- At most eleven fields are read, not ten: the limit is checked after a field
that is not the last. -/
theorem addresses_ended (hi : ∀ g ∈ init, g.last = false) (hf : f.last = true)
    (acc : List (String × Bool)) (hlen : acc.length + init.length ≤ 10) (rest : List UInt8) :
    addresses acc ((init ++ [f]).flatMap Field.bytes ++ rest) =
      some (acc ++ (init ++ [f]).map entry, rest) := by
  induction init generalizing acc with
  | nil =>
    rw [List.nil_append, List.flatMap_singleton, addresses_field, if_pos hf]
    rfl
  | cons g init ih =>
    rw [List.length_cons] at hlen
    have hg : ¬ g.last = true := by simp [hi g (List.mem_cons_self ..)]
    have hroom : ¬ acc.length + 1 > 10 := by omega
    rw [List.cons_append, List.flatMap_cons, List.append_assoc, addresses_field, if_neg hg,
      if_neg hroom, ih (fun g hm => hi g (List.mem_cons_of_mem _ hm))]
    · simp
    · rw [List.length_append, List.length_singleton]
      omega

theorem addresses_some (h : addresses acc data = some (addrs, rest)) (hacc : acc.length ≤ 10) :
    ∃ fields, Ended fields ∧ data = fields.flatMap Field.bytes ++ rest ∧ addrs = acc ++
      fields.map entry ∧ acc.length + fields.length ≤ 11 := by
  fun_induction addresses acc data with
  | case1 acc b₀ b₁ b₂ b₃ b₄ b₅ b₆ more ih =>
    obtain ⟨⟨call, last, rep⟩, ha, h⟩ := Option.bind_eq_some_iff.mp h
    obtain ⟨f, hc, hg, rfl, rfl, rfl⟩ := (address_iff [b₀, b₁, b₂, b₃, b₄, b₅] b₆ rfl).mp ha
    have hb : f.bytes = [b₀, b₁, b₂, b₃, b₄, b₅, b₆] := by rw [Field.bytes, hc, hg]; rfl
    simp only [List.length_append, List.length_singleton] at h
    split at h
    · rename_i hlast
      cases h
      refine ⟨[f], ⟨[], f, rfl, fun _ hm => ?_, hlast⟩, ?_, rfl, ?_⟩
      · cases hm
      · simp [hb]
      · rw [List.length_singleton]
        omega
    · rename_i hlast
      split at h
      · cases h
      · rename_i hroom
        obtain ⟨fields, ⟨init, l, hf, hi, hl⟩, hd, hadd, hlen⟩ := ih f.text f.repeated h (by
          rw [List.length_append, List.length_singleton]
          omega)
        rw [List.length_append, List.length_singleton] at hlen
        refine ⟨f :: fields, ⟨f :: init, l, by rw [hf]; rfl, ?_, hl⟩, ?_, ?_, ?_⟩
        · intro g hm
          rcases List.mem_cons.mp hm with rfl | hm
          · exact Bool.eq_false_iff.mpr hlast
          · exact hi g hm
        · simp [hb, hd]
        · simp [hadd, entry]
        · rw [List.length_cons]
          omega
  | case2 => cases h

theorem addresses_packet (p : Packet) (h : p.fields.length ≤ 11) :
    addresses [] p.bytes = some (p.fields.map entry, p.control :: p.after) := by
  obtain ⟨init, f, hf, hi, hl⟩ := p.ended
  rw [hf, List.length_append, List.length_singleton] at h
  have ha := addresses_ended hi hl [] (by rw [List.length_nil]; omega) (p.control :: p.after)
  rw [Packet.bytes, hf, ha]
  rfl

/-- What is accepted, and what is read from it. -/
theorem parse_iff (data : List UInt8) (header : Header) (info : List UInt8) :
    parse data = some (header, info) ↔
      ∃ p : Packet, p.bytes = data ∧ 2 ≤ p.fields.length ∧ p.fields.length ≤ 11 ∧
      header = p.header ∧ info = p.info := by
  have hvia : ∀ fs : List Field,
      (fs.map entry).map (fun a => if a.2 then a.1 ++ "*" else a.1) = fs.map Field.marked := by
    intro fs
    rw [List.map_map]
    rfl
  constructor
  · intro h
    obtain ⟨⟨addrs, rest⟩, ha, h⟩ := Option.bind_eq_some_iff.mp h
    obtain ⟨fields, hended, hd, hadd, hlen⟩ := addresses_some ha (Nat.zero_le _)
    rw [List.nil_append] at hadd
    subst hadd
    match fields, hended, hd, hlen, h with
    | d :: s :: via, hended, hd, hlen, h =>
      simp only [List.map_cons, Option.bind_eq_bind, Option.bind_eq_some_iff, Option.some.injEq,
        Prod.mk.injEq, hvia] at h
      obtain ⟨control, hc, hheader, hinfo⟩ := h
      obtain ⟨after, rfl⟩ := List.head?_eq_some_iff.mp hc
      refine ⟨⟨d :: s :: via, control, after, hended⟩, hd.symm, by simp, ?_, hheader.symm, ?_⟩
      · simpa using hlen
      · rw [← hinfo]
        rfl
  · intro ⟨p, hb, h2, h11, hh, hi⟩
    subst hb hh hi
    have ha := addresses_packet p h11
    have htwo : ∃ d s via, p.fields = d :: s :: via := by
      match p.fields, h2 with
      | d :: s :: via, _ => exact ⟨d, s, via, rfl⟩
    obtain ⟨d, s, via, hf⟩ := htwo
    simp only [parse, ha, hf, Packet.header, Option.bind_eq_bind, Option.bind_some, List.map_cons,
      List.head?_cons, hvia]
    rfl

/-- A frame has one reading. -/
theorem packet_fields (p q : Packet) (h : p.bytes = q.bytes) (hp : p.fields.length ≤ 11)
    (hq : q.fields.length ≤ 11) : p.fields.length = q.fields.length := by
  have ha := addresses_packet p hp
  rw [h, addresses_packet q hq] at ha
  have hm : q.fields.map entry = p.fields.map entry := congrArg Prod.fst (Option.some.inj ha)
  simpa using (congrArg List.length hm).symm

def sampleField (last : Bool) : Field where
  chars := [0xAE, 0x62, 0x82, 0xAE, 0x40, 0x40]
  flags := if last then 0x61 else 0x60
  six := rfl
  legal := by
    simp only [List.forall_mem_cons, List.not_mem_nil, false_implies, implies_true, and_true, Legal]
    decide
  named := ⟨0xAE, List.mem_cons_self .., by decide⟩

def elevenAddresses : Packet where
  fields := List.replicate 10 (sampleField false) ++ [sampleField true]
  control := 0x03
  after := [0xF0]
  ended := ⟨_, _, rfl, fun g hg => by rw [List.eq_of_mem_replicate hg]; rfl, rfl⟩

end KissTncBridge.Proofs.Ax25Frames
