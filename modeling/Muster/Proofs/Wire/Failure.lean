/-
Failures on their way to a caller. The frame of a failure is read as it was written, whatever its text,
and two kinds come out as themselves: that there is no room, and that the service shuts down. Any other
kind comes out as the text it had. And whatever is wrong with a frame that has come back, or with what
it tells, is not mended by another attempt. Main statement: `failure_relayed`.
-/
import Muster.Proofs.Wire.Response
import Muster.Wire.Exchange

namespace Muster

/-- A failure of a handler as its caller is told of it. -/
def Fault.relayed : Fault → Fault
  | .capacity => .capacity
  | .shutdown => .shutdown
  | f => .remote f.message

namespace Fault

variable {e : Fault}

theorem relayed_eq_capacity_iff : e.relayed = .capacity ↔ e = .capacity := by
  cases e <;> simp [relayed]

theorem relayed_eq_shutdown_iff : e.relayed = .shutdown ↔ e = .shutdown := by
  cases e <;> simp [relayed]

theorem relayed_of_other (hcapacity : e ≠ .capacity) (hshutdown : e ≠ .shutdown) :
    e.relayed = .remote e.message := by
  cases e with
  | capacity => exact absurd rfl hcapacity
  | shutdown => exact absurd rfl hshutdown
  | _ => rfl

end Fault

namespace Wire

/-! ## The frame of a failure -/

namespace Response

variable {id : Nat} {r : Response} {frame : List UInt8} {f : Fault}

/-- A failure has no result that could be lost. -/
theorem decode_encode_ofText (hid : id < Nat.pow 2 64) (text : String) (code : Option Code) :
    decode ({ ofText id text with code } : Response).encode = .ok { ofText id text with code } := by
  apply decode_encode hid
  intro v hv
  cases hv

theorem outcome_ofFault (id : Nat) (e : Fault) : (ofFault id e).outcome = .error e.relayed := by
  cases e <;> rfl

/-! ## No failure that a frame tells of is mended -/

theorem outcome_final (h : r.outcome = .error f) : f.isRetryable = false := by
  unfold outcome at h
  split at h
  · split at h
    · cases h
    · cases h; rfl
  · split at h <;> cases h <;> rfl

theorem decode_final (h : decode frame = .error f) : f.isRetryable = false := by
  unfold decode at h
  split at h
  · cases h
  · cases h; rfl

end Response

namespace Request

variable {r : Request} {frame : List UInt8}

/-- A response is accepted when it can be read and has the id of the request, or none. -/
theorem accept_ok_iff {response : Response} : r.accept frame = .ok response ↔
    Response.decode frame = .ok response ∧ (response.id = r.id ∨ response.id = 0) := by
  unfold accept
  split
  · rename_i hread
    rw [hread]
    simp
  · rename_i response' hread
    rw [hread]
    split
    · rename_i hforeign
      constructor
      · nofun
      · rintro ⟨⟨⟩, hid⟩
        exact absurd hid (not_or.2 hforeign)
    · rename_i hown
      simp only [Except.ok.injEq]
      constructor
      · rintro rfl
        exact ⟨rfl, by omega⟩
      · exact And.left

/-- What is wrong with a frame is not mended by another attempt. -/
theorem accept_final {f : Fault} (h : r.accept frame = .error f) : f.isRetryable = false := by
  unfold accept at h
  split at h
  · rename_i hread
    cases h
    exact Response.decode_final hread
  · split at h
    · cases h; rfl
    · cases h

/-- Nor is what an accepted frame tells of. -/
theorem accept_outcome_final {f : Fault}
    (h : (r.accept frame).bind Response.outcome = .error f) : f.isRetryable = false := by
  cases haccept : r.accept frame with
  | error g =>
    rw [haccept] at h
    cases h
    exact accept_final haccept
  | ok response =>
    rw [haccept] at h
    exact Response.outcome_final h

end Request

/-! ## The law of failures -/

/-- A handler fails in whatever way and with whatever text: the frame of its failure is read as it was
written, under the same id. Its caller hears of missing room exactly when there was none, of a shutdown
exactly when there was one, and in any other case has the very text of the failure. And no failure that
comes out of a frame, with any code or none, or because it cannot be read or belongs to another request,
leads to another attempt. -/
theorem failure_relayed (id : Nat) (hid : id < Nat.pow 2 64) (e : Fault) :
    (∃ r, Response.decode (Response.ofFault id e).encode = .ok r ∧ r.id = id ∧
      (r.outcome = .error .capacity ↔ e = .capacity) ∧
      (r.outcome = .error .shutdown ↔ e = .shutdown) ∧
      (e ≠ .capacity → e ≠ .shutdown → r.outcome = .error (.remote e.message))) ∧
    (∀ text code, Response.decode ({ Response.ofText id text with code } : Response).encode =
      .ok { Response.ofText id text with code }) ∧
    (∀ (r : Response) (f : Fault), r.outcome = .error f → f.isRetryable = false) ∧
    ∀ (q : Request) (frame : List UInt8) (f : Fault),
      (q.accept frame).bind Response.outcome = .error f → f.isRetryable = false := by
  have hread : Response.decode (Response.ofFault id e).encode = .ok (Response.ofFault id e) :=
    Response.decode_encode_ofText hid e.message (some (Code.ofFault e))
  refine ⟨⟨Response.ofFault id e, hread, rfl, ?_, ?_, ?_⟩, Response.decode_encode_ofText hid,
    fun _ _ h => Response.outcome_final h, fun _ _ _ h => Request.accept_outcome_final h⟩
  · rw [Response.outcome_ofFault, Except.error.injEq]
    exact Fault.relayed_eq_capacity_iff
  · rw [Response.outcome_ofFault, Except.error.injEq]
    exact Fault.relayed_eq_shutdown_iff
  · intro hcapacity hshutdown
    rw [Response.outcome_ofFault, Fault.relayed_of_other hcapacity hshutdown]

/-- A text with a quote, a backslash, a control and characters of every width, under the largest id. -/
theorem odd_failure_relayed :
    ∃ r, Response.decode
        (Response.ofFault (Nat.pow 2 64 - 1) (.conflict "a\"\\\n\x00é€😀")).encode = .ok r ∧
      r.id = Nat.pow 2 64 - 1 ∧
      r.outcome = .error (.remote "Key already exists: a\"\\\n\x00é€😀") ∧
      r.outcome ≠ .error .capacity := by
  obtain ⟨⟨r, hread, hid, hcapacity, -, hother⟩, -⟩ :=
    failure_relayed (Nat.pow 2 64 - 1) (by decide) (.conflict "a\"\\\n\x00é€😀")
  refine ⟨r, hread, hid, hother nofun nofun, ?_⟩
  intro h
  cases hcapacity.1 h

end Wire
end Muster
