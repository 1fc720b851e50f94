import RemotePlay.Lib.Loop
import RemotePlay.Session.Envelope

/-!
# Datagram loops

Host and client process a datagram in a loop of one shape: a relay packet for
a known session is replaced by its inner envelope and processed again, an
envelope of a known session is decrypted unless its `encryptedSize` exceeds
the output buffer, anything else is handled in one pass. `DatagramLoop` is
that shape. `examined` is the one envelope such a loop comes to;
`terminates_iff` and `inBounds_iff` say what its `encryptedSize` decides.
-/

namespace RemotePlay.Session

open Lib Protocol

/-- A call of `Decrypt` on the envelope at the front of a datagram. -/
structure DecryptCall where
  encryptedSize : Nat
  /-- The length of the datagram at the call. -/
  len : Nat
  deriving DecidableEq, Repr

/-- The ciphertext range lies inside the datagram. -/
def DecryptCall.InRange (c : DecryptCall) : Prop := SecureHeader.size + c.encryptedSize ≤ c.len

instance (c : DecryptCall) : Decidable c.InRange := inferInstanceAs (Decidable (_ ≤ _))

structure DatagramLoop (σ : Type) where
  pass : Nat → σ → Pass σ
  len : σ → Nat
  decrypts : σ → List DecryptCall
  /-- The datagram is a `Secure` packet, and the `encryptedSize` in its header. -/
  IsSecure : σ → Prop
  encryptedSize : σ → Nat
  /-- The `encryptedSize` of the envelope of a known session that a pass finds. -/
  envelope : Nat → σ → Option Nat
  /-- The datagram inside the relay packet that a pass finds. -/
  unwrap : Nat → σ → Option σ
  secure : ∀ {k s e}, envelope k s = some e → IsSecure s ∧ encryptedSize s = e
  not_relay : ∀ {k s}, IsSecure s → unwrap k s = none
  oversized : ∀ {k s e}, envelope k s = some e → e > decryptedSize → ∃ s', pass k s = .again s' ∧
    IsSecure s' ∧ encryptedSize s' = e ∧ len s' = len s ∧ decrypts s' = decrypts s
  opened : ∀ {k s e}, envelope k s = some e → e ≤ decryptedSize →
    ∃ s', pass k s = .leave s' ∧ decrypts s' = decrypts s ++ [⟨e, len s⟩]
  unwrapped : ∀ {k s s'}, envelope k s = none → unwrap k s = some s' → pass k s = .again s' ∧
    IsSecure s' ∧ decrypts s' = decrypts s ∧ 0 < len s' ∧ len s' < len s
  other : ∀ {k s}, envelope k s = none → unwrap k s = none →
    ∃ s', pass k s = .leave s' ∧ decrypts s' = decrypts s

namespace DatagramLoop

variable {σ : Type} (L : DatagramLoop σ)

def guard (s : σ) : Bool := decide (0 < L.len s)

/-- At most `n` passes over the datagram of `s`. -/
def passes (n : Nat) (s : σ) : Pass σ := Loop.passes L.guard L.pass 0 n (.again s)

/-- The envelope the loop comes to, in the datagram itself or in a relay packet: its
`encryptedSize` and the length of the datagram it is in. -/
def examined (s : σ) : Option DecryptCall :=
  match L.envelope 0 s with
  | some e => some ⟨e, L.len s⟩
  | none =>
    match L.unwrap 0 s with
    | some s' => (L.envelope 1 s').map (⟨·, L.len s'⟩)
    | none => none

/-- Every pass leaves the loop or shortens the datagram, and the loop is left. -/
def Terminates (s : σ) : Prop :=
  Loop.Progress L.guard L.pass L.len 0 s ∧ Loop.Ends L.guard L.pass 0 s

/-- `Decrypt` reads received bytes only, and a pass that finds an envelope reaching past them
leaves the loop without calling it. -/
def InBounds (s : σ) : Prop :=
  (∀ n, ∀ c ∈ L.decrypts (L.passes n s).state, c.InRange) ∧
    ∀ n t e, L.passes n s = .again t → L.envelope n t = some e →
      ¬ (DecryptCall.mk e (L.len t)).InRange →
      ∃ t', L.pass n t = .leave t' ∧ L.decrypts t' = L.decrypts t

variable {L} {s : σ}

theorem guard_eq (h : 0 < L.len s) : L.guard s = true := decide_eq_true h

theorem passes_succ (n : Nat) :
    L.passes (n + 1) s =
      match L.passes n s with
      | .leave t => .leave t
      | .again t => if L.guard t then L.pass n t else .leave t := by
  rw [passes, Loop.passes_snoc, Nat.zero_add]
  rfl

/-- A datagram that is left in its first pass. -/
theorem passes_two_of_leave {t : σ} (hpos : 0 < L.len s) (h : L.pass 0 s = .leave t) :
    L.passes 2 s = .leave t := by
  have hone : L.passes 1 s = .leave t := by
    rw [passes_succ]
    show (if L.guard s then L.pass 0 s else .leave s) = _
    rw [guard_eq hpos, if_pos rfl, h]
  rw [passes_succ, hone]

theorem passes_two_of_again {t : σ} (hpos : 0 < L.len s) (h : L.pass 0 s = .again t)
    (hpos' : 0 < L.len t) : L.passes 2 s = L.pass 1 t := by
  have hone : L.passes 1 s = .again t := by
    rw [passes_succ]
    show (if L.guard s then L.pass 0 s else .leave s) = _
    rw [guard_eq hpos, if_pos rfl, h]
  rw [passes_succ, hone]
  show (if L.guard t then L.pass 1 t else .leave t) = _
  rw [guard_eq hpos', if_pos rfl]

theorem passes_two_of_empty (hlen : L.len s = 0) : L.passes 2 s = .leave s := by
  have hguard : L.guard s = false := decide_eq_false (Nat.not_lt_of_le (Nat.le_of_eq hlen))
  have hone : L.passes 1 s = .leave s := by
    rw [passes_succ]
    show (if L.guard s then L.pass 0 s else .leave s) = _
    rw [hguard]
    rfl
  rw [passes_succ, hone]

/-- What a pass can do. -/
theorem pass_cases (L : DatagramLoop σ) (k : Nat) (t : σ) :
    (∃ e t', L.envelope k t = some e ∧ e > decryptedSize ∧ L.pass k t = .again t' ∧
      L.IsSecure t' ∧ L.encryptedSize t' = e ∧ L.len t' = L.len t ∧ L.decrypts t' = L.decrypts t) ∨
    (∃ e t', L.envelope k t = some e ∧ e ≤ decryptedSize ∧ L.pass k t = .leave t' ∧
      L.decrypts t' = L.decrypts t ++ [⟨e, L.len t⟩]) ∨
    (∃ t', L.envelope k t = none ∧ L.unwrap k t = some t' ∧ L.pass k t = .again t' ∧
      L.IsSecure t' ∧ L.decrypts t' = L.decrypts t ∧ 0 < L.len t' ∧ L.len t' < L.len t) ∨
    (∃ t', L.envelope k t = none ∧ L.pass k t = .leave t' ∧ L.decrypts t' = L.decrypts t) := by
  rcases henv : L.envelope k t with _ | e
  · rcases hun : L.unwrap k t with _ | t'
    · obtain ⟨t', hp, hd⟩ := L.other henv hun
      exact .inr (.inr (.inr ⟨t', rfl, hp, hd⟩))
    · obtain ⟨hp, hsec, hd, hpos, hlt⟩ := L.unwrapped henv hun
      exact .inr (.inr (.inl ⟨t', rfl, rfl, hp, hsec, hd, hpos, hlt⟩))
  · by_cases he : e ≤ decryptedSize
    · obtain ⟨t', hp, hd⟩ := L.opened henv he
      exact .inr (.inl ⟨e, t', rfl, he, hp, hd⟩)
    · obtain ⟨t', hp, hrest⟩ := L.oversized henv (Nat.lt_of_not_le he)
      exact .inl ⟨e, t', rfl, Nat.lt_of_not_le he, hp, hrest⟩

/-- `t` is the datagram of `s` again, after an envelope was found in it in pass `k`. -/
structure Revisit (L : DatagramLoop σ) (k : Nat) (s t : σ) : Prop where
  found : L.envelope k s = some (L.encryptedSize t)
  secure : L.IsSecure t
  len : L.len t = L.len s

/-- Where the loop goes round: at its datagram, or inside the relay packet the datagram is. -/
theorem again_cases {n : Nat} {t : σ} (h : L.passes n s = .again t) :
    (n = 0 ∧ t = s) ∨ L.Revisit 0 s t ∨
    (∃ t₀, L.envelope 0 s = none ∧ L.unwrap 0 s = some t₀ ∧
      (n = 1 ∧ t = t₀ ∨ L.Revisit 1 t₀ t)) := by
  induction n generalizing t with
  | zero =>
    cases h
    exact .inl ⟨rfl, rfl⟩
  | succ n ih =>
    rw [passes_succ] at h
    split at h
    · cases h
    next t₁ hn =>
    split at h
    · rcases L.pass_cases n t₁ with ⟨e, t', henv, -, hp, hsec, he, hlen, -⟩ |
        ⟨e, t', -, -, hp, -⟩ | ⟨t', henv, hun, hp, -, -, -, -⟩ | ⟨t', -, hp, -⟩ <;>
        rw [hp] at h <;> cases h
      · -- an oversized envelope: found now, or when the loop first came to it
        have hsize := (L.secure henv).2
        rcases ih hn with ⟨rfl, rfl⟩ | hr | ⟨t₀, h0, hun, ⟨rfl, rfl⟩ | hr⟩
        · exact .inr (.inl ⟨by rw [he, henv], hsec, hlen⟩)
        · exact .inr (.inl ⟨by rw [he, ← hsize, hr.found], hsec, hlen.trans hr.len⟩)
        · exact .inr (.inr ⟨_, h0, hun, .inr ⟨by rw [he, henv], hsec, hlen⟩⟩)
        · exact .inr (.inr ⟨t₀, h0, hun, .inr ⟨by rw [he, ← hsize, hr.found], hsec,
            hlen.trans hr.len⟩⟩)
      · rcases ih hn with ⟨rfl, rfl⟩ | hr | ⟨t₀, h0, hun', ⟨rfl, rfl⟩ | hr⟩
        · exact .inr (.inr ⟨_, henv, hun, .inl ⟨rfl, rfl⟩⟩)
        · rw [L.not_relay hr.secure] at hun
          cases hun
        · rw [L.not_relay (L.unwrapped h0 hun').2.1] at hun
          cases hun
        · rw [L.not_relay hr.secure] at hun
          cases hun
    · cases h

/-- An envelope that a pass finds is the one the loop comes to. -/
theorem envelope_examined {n : Nat} {t : σ} {e : Nat} (h : L.passes n s = .again t)
    (henv : L.envelope n t = some e) : L.examined s = some ⟨e, L.len t⟩ := by
  have he := (L.secure henv).2
  unfold examined
  rcases again_cases h with ⟨rfl, rfl⟩ | hr | ⟨t₀, h0, hun, ⟨rfl, rfl⟩ | hr⟩
  · rw [henv]
  · rw [hr.found, he, hr.len]
  · simp only [h0, hun, henv, Option.map_some]
  · simp only [h0, hun, hr.found, Option.map_some, he, hr.len]

/-- And that one is found. -/
theorem examined_envelope {c : DecryptCall} (hlen : 0 < L.len s) (h : L.examined s = some c) :
    ∃ n t, L.passes n s = .again t ∧ 0 < L.len t ∧ L.envelope n t = some c.encryptedSize ∧
      L.len t = c.len := by
  unfold examined at h
  rcases henv : L.envelope 0 s with _ | e <;> simp only [henv] at h
  · rcases hun : L.unwrap 0 s with _ | t <;> simp only [hun] at h
    · cases h
    · obtain ⟨hp, -, -, hpos, -⟩ := L.unwrapped henv hun
      obtain ⟨e, he, rfl⟩ := Option.map_eq_some_iff.mp h
      refine ⟨1, t, ?_, hpos, he, rfl⟩
      rw [passes_succ]
      show (if L.guard s then L.pass 0 s else .leave s) = _
      rw [guard_eq hlen, if_pos rfl, hp]
  · rw [← Option.some.inj h]
    exact ⟨0, s, rfl, hlen, henv, rfl⟩

/-- `Decrypt` is called on no other envelope. -/
theorem decrypts_examined (h : L.decrypts s = []) {n : Nat} {c : DecryptCall}
    (hc : c ∈ L.decrypts (L.passes n s).state) : L.examined s = some c := by
  induction n with
  | zero =>
    rw [show (L.passes 0 s).state = s from rfl, h] at hc
    cases hc
  | succ n ih =>
    rw [passes_succ] at hc
    rcases hn : L.passes n s with t | t <;> simp only [hn] at hc ih
    · split at hc
      · rcases L.pass_cases n t with ⟨e, t', henv, -, hp, -, -, -, hd⟩ |
          ⟨e, t', henv, -, hp, hd⟩ | ⟨t', -, -, hp, -, hd, -, -⟩ | ⟨t', -, hp, hd⟩ <;> rw [hp] at hc
        · rw [show (Pass.again t').state = t' from rfl, hd] at hc
          exact ih hc
        · rw [show (Pass.leave t').state = t' from rfl, hd] at hc
          rcases List.mem_append.mp hc with hc | hc
          · exact ih hc
          · rw [List.mem_singleton.mp hc]
            exact envelope_examined hn henv
        · rw [show (Pass.again t').state = t' from rfl, hd] at hc
          exact ih hc
        · rw [show (Pass.leave t').state = t' from rfl, hd] at hc
          exact ih hc
      · exact ih hc
    · exact ih hc

/-- **Termination.** The loop makes progress and ends iff the envelope it comes to, if any, fits
the output buffer. -/
theorem terminates_iff (L : DatagramLoop σ) (hlen : 0 < L.len s) :
    L.Terminates s ↔ ∀ c, L.examined s = some c → c.encryptedSize ≤ decryptedSize := by
  constructor
  · rintro ⟨hprog, -⟩ c hc
    refine Nat.le_of_not_lt fun hbig => ?_
    obtain ⟨n, t, hn, hpos, henv, -⟩ := examined_envelope hlen hc
    obtain ⟨t', hp, -, -, hl, -⟩ := L.oversized henv hbig
    have := hprog n t t' hn (guard_eq hpos) (by rw [Nat.zero_add]; exact hp)
    omega
  · intro hfit
    suffices hprog : Loop.Progress L.guard L.pass L.len 0 s from
      ⟨hprog, Loop.ends_of_progress hprog⟩
    intro n t t' hn _ hpass
    rw [Nat.zero_add] at hpass
    rcases L.pass_cases n t with ⟨e, -, henv, hbig, -⟩ | ⟨e, t₁, -, -, hp, -⟩ |
      ⟨t₁, -, -, hp, -, -, -, hlt⟩ | ⟨t₁, -, hp, -⟩
    · have := hfit _ (envelope_examined hn henv)
      exact absurd this (Nat.not_le_of_lt hbig)
    · rw [hp] at hpass
      cases hpass
    · rw [hp] at hpass
      cases hpass
      exact hlt
    · rw [hp] at hpass
      cases hpass

/-- **Bounds.** `Decrypt` stays inside the datagram, and envelopes that do not are dropped, iff the
envelope the loop comes to, if any, lies inside its datagram. -/
theorem inBounds_iff (L : DatagramLoop σ) (hlen : 0 < L.len s) (hfresh : L.decrypts s = []) :
    L.InBounds s ↔ ∀ c, L.examined s = some c → c.InRange := by
  constructor
  · rintro ⟨-, hdrop⟩ c hc
    refine Classical.byContradiction fun hout => ?_
    obtain ⟨n, t, hn, -, henv, hl⟩ := examined_envelope hlen hc
    obtain ⟨t', hleave, hd⟩ := hdrop n t _ hn henv (by rw [hl]; exact hout)
    -- a pass that finds an envelope goes round or calls `Decrypt`
    rcases L.pass_cases n t with ⟨e, t₁, -, -, hp, -⟩ | ⟨e, t₁, -, -, hp, hd₁⟩ | ⟨-, hnone, -⟩ |
      ⟨-, hnone, -⟩
    · rw [hp] at hleave
      cases hleave
    · rw [hp] at hleave
      cases hleave
      rw [hd₁] at hd
      have := congrArg List.length hd
      simp at this
    · rw [henv] at hnone
      cases hnone
    · rw [henv] at hnone
      cases hnone
  · intro hrange
    refine ⟨fun n c hc => hrange c (decrypts_examined hfresh hc), fun n t e hn henv hout => ?_⟩
    exact absurd (hrange _ (envelope_examined hn henv)) hout

end DatagramLoop

end RemotePlay.Session
