import Mathlib.Data.List.Induction
import Mathlib.Data.Nat.Digits.Defs
import Rendezvous.Proofs.Address.Parsing
import Rendezvous.Proofs.Text.Splitting

/-!
# Dotted numbers

An IP probe answers with four numbers and dots between them. Each number has one way to be written,
since no zero may stand in front of another digit; so what is read is a probed text that, trimmed, is
the address as it would be written, and nothing else is.
-/

namespace Rendezvous

theorem Text.isBlank_of_isDigit {c : Char} (h : c.isDigit = true) : isBlank c = false := by
  have hrange : 48 ≤ c.toNat ∧ c.toNat ≤ 57 := Char.isDigit_iff_toNat.1 h
  simp only [isBlank, blankRanges, List.any_cons, List.any_nil, Bool.or_false, Bool.or_eq_false_iff,
    Bool.and_eq_false_iff, decide_eq_false_iff_not]
  omega

namespace Ipv4

variable {digits : List Char} {s : String} {n : UInt8} {ip : Ipv4}

/-- The value of a decimal digit. -/
def digitValue (c : Char) : Nat := c.toNat - '0'.toNat

/-- A number below 256 as it may be written: one to three digits, of which the first is a zero only if
it is the only one. -/
structure Numeral (s : String) (n : UInt8) : Prop where
  digits : ∀ c ∈ s.toList, '0'.toNat ≤ c.toNat ∧ c.toNat ≤ '9'.toNat
  length : 1 ≤ s.length ∧ s.length ≤ 3
  canonical : s.toList.head? = some '0' → s.length = 1
  value : Nat.ofDigits 10 (s.toList.reverse.map digitValue) = n.toNat

/-- Four numbers with single dots between them. -/
def Quad (s : String) (ip : Ipv4) : Prop :=
  ∃ a b c d, s = a ++ "." ++ b ++ "." ++ c ++ "." ++ d ∧
    Numeral a ip.a ∧ Numeral b ip.b ∧ Numeral c ip.c ∧ Numeral d ip.d

/-! ## Digits -/

theorem digitChar_digitValue {c : Char} (h : c.isDigit = true) :
    (digitValue c).digitChar = c ∧ digitValue c < 10 := by
  obtain ⟨hge, hle⟩ : 48 ≤ c.toNat ∧ c.toNat ≤ 57 := Char.isDigit_iff_toNat.1 h
  have hvalue : digitValue c = c.toNat - 48 := rfl
  have hsmall : digitValue c < 10 := by omega
  refine ⟨Char.toNat_inj.1 ?_, hsmall⟩
  rw [Nat.toNat_digitChar_of_lt_ten hsmall]
  omega

theorem decimalValue_append_singleton (digits : List Char) (c : Char) :
    decimalValue (digits ++ [c]) = 10 * decimalValue digits + digitValue c :=
  List.foldl_concat ..

theorem ofDigits_reverse (digits : List Char) :
    Nat.ofDigits 10 (digits.reverse.map digitValue) = decimalValue digits := by
  induction digits using List.reverseRecOn with
  | nil => rfl
  | append_singleton digits c ih =>
    rw [List.reverse_append, decimalValue_append_singleton, ← ih, add_comm]
    rfl

/-- Digits without a zero in front are those of the number that they stand for. -/
theorem toDigits_decimalValue (hdigits : ∀ c ∈ digits, c.isDigit = true) (hne : digits ≠ [])
    (hlead : digits.head? = some '0' → digits.length = 1) :
    Nat.toDigits 10 (decimalValue digits) = digits := by
  induction digits using List.reverseRecOn with
  | nil => exact absurd rfl hne
  | append_singleton digits c ih =>
    obtain ⟨hchar, hsmall⟩ := digitChar_digitValue (hdigits c (by simp))
    rw [decimalValue_append_singleton]
    cases digits with
    | nil =>
      have hzero : decimalValue [] = 0 := rfl
      rw [hzero, Nat.mul_zero, Nat.zero_add, Nat.toDigits_of_lt_base hsmall, hchar,
        List.nil_append]
    | cons first rest =>
      have hnonzero : first ≠ '0' := by
        rintro rfl
        have hlength := hlead rfl
        simp at hlength
      have hfront := ih (fun c hc => hdigits c (List.mem_append_left _ hc)) (by simp)
        fun hzero => absurd (Option.some.inj hzero) hnonzero
      have hpos : decimalValue (first :: rest) ≠ 0 := by
        intro hzero
        rw [hzero, Nat.toDigits_zero] at hfront
        exact hnonzero (List.cons.inj hfront).1.symm
      rw [Nat.toDigits_of_base_le (by decide) (by omega)]
      have hdiv : (10 * decimalValue (first :: rest) + digitValue c) / 10 =
          decimalValue (first :: rest) := by omega
      have hmod : (10 * decimalValue (first :: rest) + digitValue c) % 10 = digitValue c := by
        omega
      rw [hdiv, hmod, hfront, hchar]

/-! ## One number -/

theorem numeral_of_byte? (h : byte? s.toList = some n) : Numeral s n := by
  unfold byte? at h
  split at h
  · exact absurd h (by simp)
  rename_i hform
  split at h
  · exact absurd h (by simp)
  rename_i hlead
  split at h
  · exact absurd h (by simp)
  rename_i hsmall
  simp only [Bool.or_eq_true, not_or, List.isEmpty_iff, decide_eq_true_eq, Bool.not_eq_true',
    Bool.not_eq_false, List.all_eq_true, Char.isDigit_iff_toNat] at hform
  simp only [Bool.and_eq_true, decide_eq_true_eq, beq_iff_eq, not_and] at hlead
  obtain ⟨⟨hne, hshort⟩, hdigits⟩ := hform
  have hpos := List.length_pos_of_ne_nil hne
  have hlength : s.toList.length = s.length := String.length_toList
  refine ⟨hdigits, by omega, fun hzero => ?_, ?_⟩
  · by_contra hone
    exact hlead (by omega) hzero
  · have hsize : decimalValue s.toList < UInt8.size := by
      rw [UInt8.size]
      omega
    rw [ofDigits_reverse, ← Option.some.inj h, UInt8.toNat_ofNat_of_lt' hsize]

/-- Every byte is read back. -/
theorem byte?_toDigits : ∀ n : Fin 256, byte? (Nat.toDigits 10 n) = some (UInt8.ofNat n) := by
  decide +kernel

theorem numeral_toString (n : UInt8) : Numeral (toString n.toNat) n := by
  have hread := byte?_toDigits ⟨n.toNat, n.toNat_lt⟩
  rw [UInt8.ofNat_toNat, ← Nat.toList_repr] at hread
  exact numeral_of_byte? hread

/-- A number is written in one way. -/
theorem Numeral.eq (h : Numeral s n) : s = toString n.toNat := by
  have hne : s.toList ≠ [] := by
    have hlength := h.length.1
    rw [← String.length_toList] at hlength
    exact List.ne_nil_of_length_pos hlength
  have hdigits := toDigits_decimalValue (fun c hc => Char.isDigit_iff_toNat.2 (h.digits c hc)) hne
    (by rw [String.length_toList]; exact h.canonical)
  rw [← ofDigits_reverse, h.value, ← Nat.toList_repr] at hdigits
  exact String.toList_inj.1 hdigits.symm

theorem numeral_iff : Numeral s n ↔ s = toString n.toNat :=
  ⟨Numeral.eq, fun h => h ▸ numeral_toString n⟩

theorem byte?_eq_some_iff : byte? digits = some n ↔ digits = Nat.toDigits 10 n.toNat := by
  constructor
  · intro h
    have hnumeral : Numeral (String.ofList digits) n :=
      numeral_of_byte? (by rwa [String.toList_ofList])
    rw [← Nat.toList_repr, ← Nat.toString_eq_repr, ← hnumeral.eq, String.toList_ofList]
  · rintro rfl
    have hread := byte?_toDigits ⟨n.toNat, n.toNat_lt⟩
    rwa [UInt8.ofNat_toNat] at hread

/-! ## Four numbers -/

/-- Four numbers are written in one way. -/
theorem quad_iff : Quad s ip ↔ s = ip.text := by
  simp only [Quad, numeral_iff]
  constructor
  · rintro ⟨a, b, c, d, rfl, rfl, rfl, rfl, rfl⟩
    rfl
  · rintro rfl
    exact ⟨_, _, _, _, rfl, rfl, rfl, rfl, rfl⟩

theorem toList_text (ip : Ipv4) : ip.text.toList = ['.'].intercalate
    [Nat.toDigits 10 ip.a.toNat, Nat.toDigits 10 ip.b.toNat, Nat.toDigits 10 ip.c.toNat,
      Nat.toDigits 10 ip.d.toNat] := by
  have hdot : (toString ".").toList = ['.'] := rfl
  simp [text, hdot, List.intercalate_cons_cons]

/-- The pieces of an address are its numbers, for there is no dot in a number. -/
theorem splitAt_text (ip : Ipv4) : Text.splitAt '.' ip.text.toList =
    [Nat.toDigits 10 ip.a.toNat, Nat.toDigits 10 ip.b.toNat, Nat.toDigits 10 ip.c.toNat,
      Nat.toDigits 10 ip.d.toNat] := by
  have hdot : ∀ n, '.' ∉ Nat.toDigits 10 n := fun n hmem =>
    absurd (Nat.isDigit_of_mem_toDigits (by decide) (by decide) hmem) (by decide)
  rw [toList_text, Text.splitAt_eq_splitOn]
  exact List.splitOn_intercalate _ (by simpa using ⟨hdot _, hdot _, hdot _, hdot _⟩) (by simp)

theorem parse?_eq_some_iff : parse? s = some ip ↔ s = ip.text := by
  constructor
  · intro h
    unfold parse? at h
    split at h
    · rename_i a b c d hpieces
      obtain rfl := Option.some.inj h
      simp only [List.map_eq_cons_iff, List.map_eq_nil_iff, byte?_eq_some_iff] at hpieces
      obtain ⟨_, _, hsplit, rfl, _, _, rfl, rfl, _, _, rfl, rfl, _, _, rfl, rfl, rfl⟩ := hpieces
      rw [Text.splitAt_eq_splitOn] at hsplit
      rw [← String.toList_inj, toList_text, ← hsplit, List.intercalate_splitOn]
    · exact absurd h (by simp)
  · rintro rfl
    have hbyte : ∀ n : UInt8, byte? (Nat.toDigits 10 n.toNat) = some n := fun n =>
      byte?_eq_some_iff.2 rfl
    simp [parse?, splitAt_text, hbyte]

theorem text_inj {ip ip' : Ipv4} : ip.text = ip'.text ↔ ip = ip' := by
  refine ⟨fun h => ?_, fun h => by rw [h]⟩
  have hread := parse?_eq_some_iff.2 h
  rw [parse?_eq_some_iff.2 rfl] at hread
  exact Option.some.inj hread

/-- There is no blank in an address. -/
theorem trim_text (ip : Ipv4) : Text.trim ip.text = ip.text := by
  have hdigit : ∀ {n c}, c ∈ Nat.toDigits 10 n → Text.isBlank c = false := fun hc =>
    Text.isBlank_of_isDigit (Nat.isDigit_of_mem_toDigits (by decide) (by decide) hc)
  have hdot : Text.isBlank '.' = false := by decide
  refine Text.trim_of_not_blank fun c hc => ?_
  rw [toList_text] at hc
  simp only [List.intercalate_cons_cons, List.intercalate_singleton, List.append_assoc,
    List.mem_append, List.mem_singleton] at hc
  rcases hc with hc | rfl | hc | rfl | hc | rfl | hc
  all_goals first | exact hdigit hc | exact hdot

end Ipv4

namespace Host

variable {raw : String} {host : Host} {ip : Ipv4}

theorem parseIp_eq_ok_iff :
    parseIp raw = .ok host ↔ ∃ ip, host = .ip4 ip ∧ Text.trim raw = ip.text := by
  unfold parseIp
  constructor
  · intro h
    split at h
    · rename_i ip hparse
      exact ⟨ip, (Except.ok.inj h).symm, Ipv4.parse?_eq_some_iff.1 hparse⟩
    · exact absurd h (by simp)
  · rintro ⟨ip, rfl, htrim⟩
    rw [Ipv4.parse?_eq_some_iff.2 htrim]

theorem parseIp_eq_error (h : ∀ ip : Ipv4, Text.trim raw ≠ ip.text) :
    parseIp raw = .error (.invalidIp (Text.trim raw)) := by
  unfold parseIp
  split
  · rename_i ip hparse
    exact absurd (Ipv4.parse?_eq_some_iff.1 hparse) (h ip)
  · rfl

/-- What comes of the output of an IP probe. -/
structure ReadsAsQuad (raw : String) : Prop where
  /-- The output is trimmed. -/
  trimmed : Text.Trimmed raw (Text.trim raw)
  /-- It is read when four numbers are left, -/
  ok_iff : (∃ host, parseIp raw = .ok host) ↔ ∃ ip, Ipv4.Quad (Text.trim raw) ip
  /-- and these are the host, -/
  read : ∀ host, parseIp raw = .ok host → ∃ ip, host = .ip4 ip ∧ Ipv4.Quad (Text.trim raw) ip
  /-- whose addresses begin with them as they are written. -/
  stem : ∀ host, parseIp raw = .ok host →
    host.stem = "/ip4/" ++ Text.trim raw ++ "/tcp/2121/p2p/"
  /-- Two outputs name one host only when they are the same, trimmed. -/
  same_iff : ∀ raw' host host', parseIp raw = .ok host → parseIp raw' = .ok host' →
    (host = host' ↔ Text.trim raw = Text.trim raw')
  /-- Anything else is refused. -/
  refused : (∀ ip, ¬ Ipv4.Quad (Text.trim raw) ip) →
    parseIp raw = .error (.invalidIp (Text.trim raw))

/-- Whatever the probe answers, it is read when it is four numbers as they are written. -/
theorem probed_ip_canonical (raw : String) :
    ReadsAsQuad raw ∧ ∀ ip : Ipv4, Ipv4.Quad ip.text ip ∧ parseIp ip.text = .ok (.ip4 ip) := by
  refine ⟨⟨Text.trimmed_trim raw, ?_, ?_, ?_, ?_, ?_⟩, fun ip => ⟨Ipv4.quad_iff.2 rfl, ?_⟩⟩
  · simp only [parseIp_eq_ok_iff, Ipv4.quad_iff]
    exact ⟨fun ⟨_, ip, _, htrim⟩ => ⟨ip, htrim⟩, fun ⟨ip, htrim⟩ => ⟨_, ip, rfl, htrim⟩⟩
  · simp only [parseIp_eq_ok_iff, Ipv4.quad_iff]
    exact fun _ h => h
  · intro host h
    obtain ⟨ip, rfl, htrim⟩ := parseIp_eq_ok_iff.1 h
    have hend : s!"/tcp/{peerPort}" ++ peerMark = "/tcp/2121/p2p/" := by decide +kernel
    rw [htrim, ← hend, ← String.append_assoc]
    rfl
  · intro raw' host host' h h'
    obtain ⟨ip, rfl, htrim⟩ := parseIp_eq_ok_iff.1 h
    obtain ⟨ip', rfl, htrim'⟩ := parseIp_eq_ok_iff.1 h'
    rw [htrim, htrim', Host.ip4.injEq, Ipv4.text_inj]
  · simp only [Ipv4.quad_iff]
    exact parseIp_eq_error
  · exact parseIp_eq_ok_iff.2 ⟨ip, rfl, ip.trim_text⟩

example : parseIp " 10.0.0.1\n" = .ok (.ip4 ⟨10, 0, 0, 1⟩) ∧
    parseIp "10.0.0.01" = .error (.invalidIp "10.0.0.01") := by
  decide +kernel

end Host

end Rendezvous
