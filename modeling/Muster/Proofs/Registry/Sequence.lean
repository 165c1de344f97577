/-
Instances of one service. A sequence is the address as a number and then the port, so it shows both;
what it does not show is the family of the address. An address of version 4 and the one of version 6
with the same number share the sequence of every port, and so the instances there stand in each other's
way; all others never do. Main statement: `sequence_shared_iff`.
-/
import Mathlib.Tactic.Ring
import Muster.Proofs.Json.Number
import Muster.Proofs.Registry.Isolation

namespace Muster

/-! ## What a sequence shows -/

namespace Digits

theorem readFrom_append (acc : Nat) (cs ds : List Char) :
    readFrom acc (cs ++ ds) = (readFrom acc cs).bind (readFrom · ds) := by
  induction cs generalizing acc with
  | nil => rfl
  | cons c cs ih =>
    rw [List.cons_append, readFrom, readFrom]
    cases value? c with
    | none => rfl
    | some d => exact ih _

theorem readFrom_digitChar (acc n : Nat) : readFrom acc [digitChar n] = some (acc * 10 + n % 10) := by
  rw [readFrom, ← digitChar_mod, value?_digitChar (Nat.mod_lt n (by decide))]
  rfl

theorem readFrom_write (n : Nat) : readFrom 0 (write n) = some n := by
  induction n using Nat.strongRecOn with
  | ind n ih =>
    rw [write]
    split
    · rw [readFrom_digitChar]
      congr 1
      omega
    · rw [readFrom_append, ih (n / 10) (by omega), Option.bind_some, readFrom_digitChar]
      congr 1
      omega

theorem readFrom_padded (acc width n : Nat) :
    readFrom acc (padded width n) = some (acc * 10 ^ width + n % 10 ^ width) := by
  induction width generalizing n with
  | zero => simp [padded, readFrom, Nat.mod_one]
  | succ width ih =>
    rw [padded, readFrom_append, ih, Option.bind_some, readFrom_digitChar, Nat.pow_succ', Nat.mod_mul]
    congr 1
    ring

end Digits

namespace Ip

/-- The same number in the two families. -/
def IsTwin : Ip → Ip → Prop
  | v4 a, v6 b | v6 b, v4 a => b = a.setWidth 128
  | _, _ => False

theorem toNat_eq_iff {ip ip' : Ip} : ip.toNat = ip'.toNat ↔ ip = ip' ∨ ip.IsTwin ip' := by
  have across (a : BitVec 32) (b : BitVec 128) : b = a.setWidth 128 ↔ b.toNat = a.toNat := by
    have hlt : a.toNat < 2 ^ 128 := Nat.lt_trans a.isLt (by decide)
    rw [← BitVec.toNat_inj, BitVec.toNat_setWidth, Nat.mod_eq_of_lt hlt]
  cases ip with
  | v4 a =>
    cases ip' with
    | v4 a' => simp [toNat, IsTwin, BitVec.toNat_inj]
    | v6 b => simp [toNat, IsTwin, across, eq_comm]
  | v6 b =>
    cases ip' with
    | v4 a => simp [toNat, IsTwin, across]
    | v6 b' => simp [toNat, IsTwin, BitVec.toNat_inj]

end Ip

namespace Registry

/-- A sequence is a number with its port in the last five digits. -/
theorem readFrom_sequenceFor (ip : Ip) (port : Nat) :
    Digits.readFrom 0 (sequenceFor ip port).toList = some (ip.toNat * 10 ^ 5 + port % 10 ^ 5) := by
  rw [sequenceFor, String.toList_ofList, Digits.readFrom_append, Digits.readFrom_write,
    Option.bind_some, Digits.readFrom_padded]

theorem sequenceFor_eq_iff {ip ip' : Ip} {port port' : Nat} (h : port < 65536) (h' : port' < 65536) :
    sequenceFor ip port = sequenceFor ip' port' ↔ port = port' ∧ (ip = ip' ∨ ip.IsTwin ip') := by
  rw [← Ip.toNat_eq_iff]
  constructor
  · intro hsame
    have hread := readFrom_sequenceFor ip port
    rw [hsame, readFrom_sequenceFor, Option.some.injEq] at hread
    omega
  · rintro ⟨rfl, hnumber⟩
    rw [sequenceFor, sequenceFor, hnumber]

/-! ## The commands of an instance -/

/-- Registers the instance at an address and port, also where the port has been drawn. -/
inductive Command.Registers (svc : Service) (ip : Ip) (port : Nat) : Command → Prop
  | intro {asked drawn : Nat} {kind : Kind} {version now : String} :
      (if asked = 0 then drawn else asked) = port →
      Registers svc ip port (.register svc ip asked drawn kind version now)

/-- What an instance has done: it registers, reads its record and deregisters. -/
inductive Command.IsOf (svc : Service) (ip : Ip) (port : Nat) : Command → Prop
  | register {c : Command} : c.Registers svc ip port → IsOf svc ip port c
  | read : IsOf svc ip port (.read svc (sequenceFor ip port))
  | deregister : IsOf svc ip port (.deregister svc (sequenceFor ip port))

section Instances

variable {svc : Service} {ip ip' : Ip} {port port' : Nat} {c d : Command} {s t : Store} {q : String}

/-- Registering writes a valid record at the sequence. -/
theorem Command.Registers.run (h : c.Registers svc ip port) :
    ∃ reg : Registration, reg.record.validate = .ok () ∧ ∀ s, c.run memory s =
      ((writeRecord memory svc (sequenceFor ip port) reg.record s).1.map fun _ => .registered reg,
        (writeRecord memory svc (sequenceFor ip port) reg.record s).2) := by
  cases h with
  | @intro asked drawn kind version now hport =>
    obtain ⟨reg, hreg⟩ : ∃ reg, reg = Registration.ofInstance ip asked drawn kind version now :=
      ⟨_, rfl⟩
    have hsequence : reg.sequence = sequenceFor ip port := by
      rw [hreg, ← hport]
      rfl
    refine ⟨reg, ?_, ?_⟩
    · rw [hreg]
      exact Record.validate_ofInstance ..
    · intro s
      rw [Mirrors.run_register hreg, hsequence]

/-- An instance is answered by what stands at its sequence. -/
theorem Command.IsOf.run_of_find? (h : c.IsOf svc ip port)
    (hsame : Store.find? (svc.key (sequenceFor ip port)) s.entries =
      Store.find? (svc.key (sequenceFor ip port)) t.entries) :
    (c.run memory s).1 = (c.run memory t).1 := by
  cases h with
  | register h =>
    obtain ⟨reg, -, hrun⟩ := h.run
    rw [hrun, hrun, writeRecord_of_find? hsame]
  | read => rw [run_read, run_read, readRecord_of_find? hsame]
  | deregister => rw [run_deregister, run_deregister, run_clear, run_clear, clearRecord_of_find? hsame]

theorem find?_of_filter {key : String}
    (h : t.entries.filter (·.key == key) = s.entries.filter (·.key == key)) :
    Store.find? key t.entries = Store.find? key s.entries := by
  rw [Store.find?, Store.find?, ← List.head?_filter, ← List.head?_filter, h]

/-- An instance leaves alone what stands at other sequences. -/
theorem Command.IsOf.find?_run (h : c.IsOf svc ip port) (hq : sequenceFor ip port ≠ q) (s : Store) :
    Store.find? (svc.key q) (c.run memory s).2.entries = Store.find? (svc.key q) s.entries := by
  have apart (e : Entry) (he : e.key = svc.key (sequenceFor ip port)) :
      (e.key == svc.key q) = false := by
    rw [beq_eq_false_iff_ne, he, Ne, svc.key_inj]
    exact hq
  cases h with
  | register h =>
    obtain ⟨reg, -, hrun⟩ := h.run
    rw [hrun]
    rcases writeRecord_cases svc (sequenceFor ip port) reg.record s with hs | ⟨value, hs⟩
    · rw [hs]
    · exact find?_of_filter (Store.filter_of_create hs apart)
  | read => rfl
  | deregister =>
    rw [run_deregister, run_clear]
    rcases clearRecord_cases svc (sequenceFor ip port) s with hs | hs
    · rw [hs]
    · exact find?_of_filter (Store.filter_of_delete hs apart)

theorem find?_after (hq : sequenceFor ip port ≠ q) {cs : List Command} (s : Store)
    (hcs : ∀ c ∈ cs, c.IsOf svc ip port) :
    Store.find? (svc.key q) (after memory cs s).entries = Store.find? (svc.key q) s.entries := by
  induction cs generalizing s with
  | nil => rfl
  | cons c cs ih =>
    have hrest := ih (c.run memory s).2 fun d hd => hcs d (List.mem_cons_of_mem c hd)
    exact hrest.trans ((hcs c List.mem_cons_self).find?_run hq s)

/-- At a free sequence an instance is registered, and from then on the sequence is taken. -/
theorem Command.Registers.free (h : c.Registers svc ip port)
    (hfree : Store.find? (svc.key (sequenceFor ip port)) s.entries = none) :
    (∃ reg, (c.run memory s).1 = .ok (.registered reg)) ∧
      ∃ e, Store.find? (svc.key (sequenceFor ip port)) (c.run memory s).2.entries = some e := by
  obtain ⟨reg, hvalid, hrun⟩ := h.run
  obtain ⟨t, ht, hmem⟩ := Store.create_free hfree reg.record.encode
  have hwrite : writeRecord memory svc (sequenceFor ip port) reg.record s = (.ok (), t) := by
    unfold writeRecord
    simp only [hvalid, memory, ht]
  rw [hrun, hwrite]
  constructor
  · exact ⟨reg, rfl⟩
  · apply Option.ne_none_iff_exists'.1
    intro hnone
    exact Store.find?_none hnone _ ((hmem _).2 (.inl rfl)) rfl

/-- At a sequence that is taken nothing is registered. -/
theorem Command.Registers.taken (h : c.Registers svc ip port) {e : Entry}
    (htaken : Store.find? (svc.key (sequenceFor ip port)) s.entries = some e) :
    (c.run memory s).1 = .error (.conflict (svc.key (sequenceFor ip port))) := by
  obtain ⟨reg, hvalid, hrun⟩ := h.run
  rw [hrun]
  unfold writeRecord
  simp only [hvalid, memory, Store.create_taken htaken]
  rfl

/-- What has been deregistered is not there any more. -/
theorem read_deregistered (svc : Service) (q : String) (s : Store) :
    ((Command.read svc q).run memory ((Command.deregister svc q).run memory s).2).1 =
      .error (.notFound (svc.key q)) := by
  have hgone : Store.find? (svc.key q) ((Command.deregister svc q).run memory s).2.entries = none := by
    rw [run_deregister, run_clear]
    unfold clearRecord
    rcases hs : Store.find? (svc.key q) s.entries with _ | e
    · simp only [memory, Store.delete_missing hs]
      exact hs
    · obtain ⟨t, ht, hmem⟩ := Store.delete_held hs
      simp only [memory, ht]
      rw [Store.find?, List.find?_eq_none]
      intro f hf
      simpa using ((hmem f).1 hf).2
  rw [run_read]
  show ((Store.get _ _).bind _).map _ = _
  rw [Store.get_missing hgone]
  rfl

/-! ## Twins -/

/-- Two instances of a service share a sequence exactly when their ports are equal and their addresses
are equal or twins. Where they do not, whatever the one does leaves all answers to the other as they
are. Where twins are, the second to register is refused, and when it deregisters the record of the
first is gone. -/
theorem sequence_shared_iff (svc : Service) (ip ip' : Ip) (h : port < 65536) (h' : port' < 65536) :
    (sequenceFor ip port = sequenceFor ip' port' ↔ port = port' ∧ (ip = ip' ∨ ip.IsTwin ip')) ∧
    (¬ (port = port' ∧ (ip = ip' ∨ ip.IsTwin ip')) → ∀ (s : Store) (cs : List Command) (d : Command),
      (∀ c ∈ cs, c.IsOf svc ip port) → d.IsOf svc ip' port' →
        (d.run memory (after memory cs s)).1 = (d.run memory s).1) ∧
    (port = port' → ip.IsTwin ip' → ∀ (s : Store) (c d : Command),
      Store.find? (svc.key (sequenceFor ip port)) s.entries = none →
      c.Registers svc ip port → d.Registers svc ip' port' →
        (∃ reg, (c.run memory s).1 = .ok (.registered reg)) ∧
        (d.run memory (after memory [c] s)).1 = .error (.conflict (svc.key (sequenceFor ip port))) ∧
        ((Command.read svc (sequenceFor ip port)).run memory
          (after memory [c, .deregister svc (sequenceFor ip' port')] s)).1 =
            .error (.notFound (svc.key (sequenceFor ip port)))) := by
  have hshared : sequenceFor ip port = sequenceFor ip' port' ↔
      port = port' ∧ (ip = ip' ∨ ip.IsTwin ip') := sequenceFor_eq_iff h h'
  refine ⟨hshared, ?_, ?_⟩
  · intro hapart s cs d hcs hd
    apply hd.run_of_find?
    exact find?_after (mt hshared.1 hapart) s hcs
  · intro hport htwin s c d hfree hc hd
    have hsame : sequenceFor ip' port' = sequenceFor ip port := (hshared.2 ⟨hport, .inr htwin⟩).symm
    obtain ⟨hregistered, e, htaken⟩ := hc.free hfree
    refine ⟨hregistered, ?_, ?_⟩
    · rw [← hsame] at htaken ⊢
      exact hd.taken htaken
    · rw [hsame]
      exact read_deregistered svc (sequenceFor ip port) (c.run memory s).2

/-- The loopback address of version 6 and a twin of version 4; neighbours keep to themselves. -/
theorem loopback_has_twin :
    let svc : Service := { name := "orders" }
    let c : Command := .register svc (.v4 1) 80 0 .rpc "" ""
    let d : Command := .register svc (.v6 1) 80 0 .rpc "" ""
    let e : Command := .register svc (.v4 2) 80 0 .rpc "" ""
    (d.run memory (after memory [c] (.empty 1))).1 =
      .error (.conflict (svc.key (sequenceFor (.v4 1) 80))) ∧
    (e.run memory (after memory [c] (.empty 1))).1 = (e.run memory (.empty 1)).1 := by
  intro svc c d e
  have hc : c.Registers svc (.v4 1) 80 := .intro rfl
  have hport : 80 < 65536 := by decide
  have twins := sequence_shared_iff svc (.v4 1) (.v6 1) hport hport
  have neighbours := sequence_shared_iff svc (.v4 1) (.v4 2) hport hport
  constructor
  · exact (twins.2.2 rfl (by simp [Ip.IsTwin]) (.empty 1) c d rfl hc (.intro rfl)).2.1
  · apply neighbours.2.1 (by simp [Ip.IsTwin])
    · intro f hf
      rw [List.mem_singleton.1 hf]
      exact .register hc
    · exact .register (.intro rfl)

end Instances

end Registry

end Muster
