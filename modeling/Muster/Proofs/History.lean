/-
Runs of a system that goes on step by step, and what they make known. A system is a function that
takes a step; another tells what the step makes known. What each step keeps, together with all that
has been made known so far, a run keeps.
-/

namespace Muster

variable {σ α ν : Type} {step : σ → α → σ} {tells : σ → α → List ν}

/-- What a run makes known, from its beginning to its end. -/
def history (step : σ → α → σ) (tells : σ → α → List ν) : σ → List α → List ν
  | _, [] => []
  | s, a :: as => tells s a ++ history step tells (step s a) as

theorem history_append (s : σ) : ∀ (as bs : List α),
    history step tells s (as ++ bs) =
      history step tells s as ++ history step tells (as.foldl step s) bs
  | [], _ => rfl
  | a :: as, bs => by
    rw [List.cons_append, history, history, history_append _ as bs, List.append_assoc,
      List.foldl_cons]

/-- The induction over a run whose steps are all of one kind. -/
theorem run_invariant_of {P : σ → List ν → Prop} {allowed : α → Prop}
    (hstep : ∀ s a log, allowed a → P s log → P (step s a) (log ++ tells s a)) :
    ∀ (as : List α), (∀ a ∈ as, allowed a) → ∀ (s : σ) (log : List ν), P s log →
      P (as.foldl step s) (log ++ history step tells s as)
  | [], _, s, log, h => by rw [history, List.append_nil]; exact h
  | a :: as, ha, s, log, h => by
    rw [history, ← List.append_assoc]
    exact run_invariant_of hstep as (fun b hb => ha b (List.mem_cons_of_mem a hb)) _ _
      (hstep s a log (ha a (List.mem_cons_self ..)) h)

/-- The induction over a run. -/
theorem run_invariant {P : σ → List ν → Prop}
    (hstep : ∀ s a log, P s log → P (step s a) (log ++ tells s a))
    (as : List α) (s : σ) (log : List ν) (h : P s log) :
    P (as.foldl step s) (log ++ history step tells s as) :=
  run_invariant_of (fun s a log (_ : True) => hstep s a log) as (fun _ _ => trivial) s log h

/-- Where a record that has grown by one can be cut: at its new end, or where it could before. -/
theorem snoc_split {log a b : List ν} {m n : ν} (h : log ++ [m] = a ++ n :: b) :
    (a = log ∧ n = m ∧ b = []) ∨ ∃ b', b = b' ++ [m] ∧ log = a ++ n :: b' := by
  rcases List.eq_nil_or_concat b with rfl | ⟨b', x, rfl⟩
  · obtain ⟨rfl, hn⟩ := List.append_inj' h rfl
    simp only [List.cons.injEq, and_true] at hn
    exact .inl ⟨rfl, hn.symm, rfl⟩
  · rw [List.concat_eq_append, ← List.cons_append, ← List.append_assoc] at h
    obtain ⟨rfl, hn⟩ := List.append_inj' h rfl
    simp only [List.cons.injEq, and_true] at hn
    exact .inr ⟨b', by rw [List.concat_eq_append, hn], rfl⟩

/-- What is not among the latest entries of a record was in it before. -/
theorem append_split {log more a b : List ν} {n : ν} (hn : n ∉ more)
    (h : log ++ more = a ++ n :: b) : ∃ b', b = b' ++ more ∧ log = a ++ n :: b' := by
  rcases List.append_eq_append_iff.1 h with ⟨a', rfl, hmore⟩ | ⟨b', rfl, hb⟩
  · exact absurd (hmore ▸ List.mem_append_right a' (List.mem_cons_self ..)) hn
  · cases b' with
    | nil =>
      rw [List.nil_append] at hb
      exact absurd (hb ▸ List.mem_cons_self ..) hn
    | cons x b' =>
      simp only [List.cons_append, List.cons.injEq] at hb
      obtain ⟨rfl, rfl⟩ := hb
      exact ⟨b', rfl, rfl⟩

end Muster
