import ModemLink.Remote.Modem

/-!
# How programs end

A program of finite depth ends whatever it is told. `Ends P p n` says so of `p`, with a bound on its
questions and a predicate on how it ends.

* `Possible`: the ends that a program can come to.
* `ends_bind`, `ends_attempt`: programs made of others.
* `ends_proceed`, `ends_run`: what becomes of a program that goes on, and of one that runs.
* `run_bind_of_ok`, `run_bind_of_error`, `exists_of_result_bind`, `run_map`, `run_attempt`: the runs
  of programs made of others.
* `EndsWith`: how a program ends if the replies are as they should be.
* `ends_property`, `ends_command`: reading a property of a modem and telling it something.
-/

namespace ModemLink.Program

variable {Q R α β σ : Type}

/-- Whatever the replies are, the program ends after at most so many questions, with a result or an
error that satisfies `P`. -/
def Ends (P : Except Error α → Prop) : Program Q R α → Nat → Prop
  | done a, _ => P (.ok a)
  | fail e, _ => P (.error e)
  | ask _ _, 0 => False
  | ask _ next, n + 1 => ∀ r, Ends P (next r) n
  | whetherLinked next, n => ∀ b, Ends P (next b) n

variable {P : Except Error α → Prop}

theorem Ends.mono {P' : Except Error α → Prop} {p : Program Q R α} {n m : Nat} (h : Ends P p n)
    (hP : ∀ x, P x → P' x) (hn : n ≤ m) : Ends P' p m := by
  induction p generalizing n m with
  | done a => exact hP _ h
  | fail e => exact hP _ h
  | ask q next ih =>
    cases n with
    | zero => exact h.elim
    | succ n =>
      obtain ⟨m, rfl⟩ : ∃ k, m = k + 1 := ⟨m - 1, by omega⟩
      intro r
      exact ih r (h r) (Nat.le_of_succ_le_succ hn)
  | whetherLinked next ih =>
    intro b
    exact ih b (h b) hn

/-- An end that the program can come to. -/
def Possible : Program Q R α → Except Error α → Prop
  | done a, x => x = .ok a
  | fail e, x => x = .error e
  | ask _ next, x => ∃ r, Possible (next r) x
  | whetherLinked next, x => ∃ b, Possible (next b) x

theorem Ends.possible {p : Program Q R α} {n : Nat} (h : Ends P p n) :
    Ends (fun x => P x ∧ p.Possible x) p n := by
  induction p generalizing n with
  | done a => exact ⟨h, rfl⟩
  | fail e => exact ⟨h, rfl⟩
  | ask q next ih =>
    cases n with
    | zero => exact h.elim
    | succ n =>
      intro r
      exact (ih r (h r)).mono (fun _ hx => ⟨hx.1, r, hx.2⟩) (Nat.le_refl n)
  | whetherLinked next ih =>
    intro b
    exact (ih b (h b)).mono (fun _ hx => ⟨hx.1, b, hx.2⟩) (Nat.le_refl n)

theorem exists_of_possible_bind {p : Program Q R α} {f : α → Program Q R β} {b : β}
    (h : (p.bind f).Possible (.ok b)) : ∃ a, p.Possible (.ok a) ∧ (f a).Possible (.ok b) := by
  induction p with
  | done a => exact ⟨a, rfl, h⟩
  | fail e => cases h
  | ask q next ih =>
    obtain ⟨r, hNext⟩ := h
    obtain ⟨a, hFirst, hRest⟩ := ih r hNext
    exact ⟨a, ⟨r, hFirst⟩, hRest⟩
  | whetherLinked next ih =>
    obtain ⟨linked, hNext⟩ := h
    obtain ⟨a, hFirst, hRest⟩ := ih linked hNext
    exact ⟨a, ⟨linked, hFirst⟩, hRest⟩

theorem exists_of_possible_map {p : Program Q R α} {f : α → β} {b : β}
    (h : (p.bind fun a => .done (f a)).Possible (.ok b)) : ∃ a, b = f a := by
  obtain ⟨a, -, hDone⟩ := exists_of_possible_bind h
  exact ⟨a, Except.ok.inj hDone⟩

theorem ends_bind {P' : Except Error β → Prop} {p : Program Q R α} {f : α → Program Q R β}
    {n m : Nat} (h : Ends P p n) (hFail : ∀ e, P (.error e) → P' (.error e))
    (hNext : ∀ a, P (.ok a) → Ends P' (f a) m) : Ends P' (p.bind f) (n + m) := by
  induction p generalizing n with
  | done a => exact (hNext a h).mono (fun _ hx => hx) (Nat.le_add_left m n)
  | fail e => exact hFail e h
  | ask q next ih =>
    cases n with
    | zero => exact h.elim
    | succ n =>
      rw [Nat.add_right_comm]
      intro r
      exact ih r (h r)
  | whetherLinked next ih =>
    intro b
    exact ih b (h b)

theorem ends_attempt {p : Program Q R α} {n : Nat} (h : Ends P p n) :
    Ends (fun x => ∃ y, x = .ok y ∧ P y) p.attempt n := by
  induction p generalizing n with
  | done a => exact ⟨_, rfl, h⟩
  | fail e => exact ⟨_, rfl, h⟩
  | ask q next ih =>
    cases n with
    | zero => exact h.elim
    | succ n =>
      intro r
      exact ih r (h r)
  | whetherLinked next ih =>
    intro b
    exact ih b (h b)

theorem ends_proceed {p : Program Q R α} {n : Nat} (h : Ends P p n) (linked : Bool) :
    Ends P (p.proceed linked) n := by
  induction p with
  | done a => exact h
  | fail e => exact h
  | ask q next _ => exact h
  | whetherLinked next ih => exact ih linked (h linked)

/-- A program that has gone on as far as it can has ended or asks. -/
theorem proceed_cases (p : Program Q R α) (linked : Bool) :
    (∃ a, p.proceed linked = done a) ∨ (∃ e, p.proceed linked = fail e) ∨
      ∃ q next, p.proceed linked = ask q next := by
  induction p with
  | done a => exact .inl ⟨a, rfl⟩
  | fail e => exact .inr (.inl ⟨e, rfl⟩)
  | ask q next _ => exact .inr (.inr ⟨q, next, rfl⟩)
  | whetherLinked next ih => exact ih linked

/-- A run ends as its program does, and asks no more than its program. -/
theorem ends_run {p : Program Q R α} {n : Nat} (h : Ends P p n) (answer : σ → Q → R × σ)
    (linked : Bool) (s : σ) :
    P (p.run answer linked s).result ∧ (p.run answer linked s).trace.length ≤ n := by
  induction p generalizing n s with
  | done a => exact ⟨h, Nat.zero_le n⟩
  | fail e => exact ⟨h, Nat.zero_le n⟩
  | ask q next ih =>
    cases n with
    | zero => exact h.elim
    | succ n =>
      obtain ⟨hResult, hTrace⟩ := ih (answer s q).1 (h _) (answer s q).2
      exact ⟨hResult, Nat.succ_le_succ hTrace⟩
  | whetherLinked next ih => exact ih linked (h linked) s

theorem possible_run (p : Program Q R α) (answer : σ → Q → R × σ) (linked : Bool) (s : σ) :
    p.Possible (p.run answer linked s).result := by
  induction p generalizing s with
  | done a => rfl
  | fail e => rfl
  | ask q next ih => exact ⟨_, ih _ _⟩
  | whetherLinked next ih => exact ⟨linked, ih linked s⟩

theorem run_bind_of_ok {p : Program Q R α} {f : α → Program Q R β} {answer : σ → Q → R × σ}
    {linked : Bool} {s : σ} {a : α} (h : (p.run answer linked s).result = .ok a) :
    (p.bind f).run answer linked s =
      let first := p.run answer linked s
      let rest := (f a).run answer linked first.state
      { rest with trace := first.trace ++ rest.trace } := by
  induction p generalizing s with
  | done b =>
    rw [Except.ok.inj h]
    rfl
  | fail e => cases h
  | ask q next ih =>
    have hNext := ih (answer s q).1 (s := (answer s q).2) h
    simp only [bind, run, hNext, List.cons_append]
  | whetherLinked next ih => exact ih linked h

theorem run_bind_of_error {p : Program Q R α} {answer : σ → Q → R × σ} {linked : Bool} {s : σ}
    {e : Error} (h : (p.run answer linked s).result = .error e) (f : α → Program Q R β) :
    (p.bind f).run answer linked s =
      let first := p.run answer linked s
      ⟨.error e, first.state, first.trace⟩ := by
  induction p generalizing s with
  | done b => cases h
  | fail e' =>
    rw [Except.error.inj h.symm]
    rfl
  | ask q next ih =>
    have hNext := ih (answer s q).1 (s := (answer s q).2) h
    simp only [bind, run, hNext]
  | whetherLinked next ih => exact ih linked h

theorem result_bind {p : Program Q R α} {f : α → Program Q R β} {answer : σ → Q → R × σ}
    {linked : Bool} {s : σ} {a : α} (h : (p.run answer linked s).result = .ok a) :
    ((p.bind f).run answer linked s).result =
      ((f a).run answer linked (p.run answer linked s).state).result := by
  rw [run_bind_of_ok h]

theorem exists_of_result_bind {p : Program Q R α} {f : α → Program Q R β} {answer : σ → Q → R × σ}
    {linked : Bool} {s : σ} {b : β} (h : ((p.bind f).run answer linked s).result = .ok b) :
    ∃ a, (p.run answer linked s).result = .ok a ∧
      ((f a).run answer linked (p.run answer linked s).state).result = .ok b := by
  cases hFirst : (p.run answer linked s).result with
  | error e =>
    rw [run_bind_of_error hFirst] at h
    cases h
  | ok a =>
    rw [result_bind hFirst] at h
    exact ⟨a, rfl, h⟩

theorem run_map (p : Program Q R α) (f : α → β) (answer : σ → Q → R × σ) (linked : Bool) (s : σ) :
    (p.bind fun a => .done (f a)).run answer linked s =
      let outcome := p.run answer linked s
      ⟨outcome.result.map f, outcome.state, outcome.trace⟩ := by
  induction p generalizing s with
  | done a => rfl
  | fail e => rfl
  | ask q next ih =>
    have hNext := ih (answer s q).1 (answer s q).2
    simp only [bind, run, hNext]
  | whetherLinked next ih => exact ih linked s

theorem result_map (p : Program Q R α) (f : α → β) (answer : σ → Q → R × σ) (linked : Bool)
    (s : σ) : ((p.bind fun a => .done (f a)).run answer linked s).result =
      (p.run answer linked s).result.map f := by
  rw [run_map]

theorem run_attempt (p : Program Q R α) (answer : σ → Q → R × σ) (linked : Bool) (s : σ) :
    p.attempt.run answer linked s =
      let outcome := p.run answer linked s
      ⟨.ok outcome.result, outcome.state, outcome.trace⟩ := by
  induction p generalizing s with
  | done a => rfl
  | fail e => rfl
  | ask q next ih =>
    have hNext := ih (answer s q).1 (answer s q).2
    simp only [attempt, run, hNext]
  | whetherLinked next ih => exact ih linked s

theorem result_attempt (p : Program Q R α) (answer : σ → Q → R × σ) (linked : Bool) (s : σ) :
    (p.attempt.run answer linked s).result = .ok (p.run answer linked s).result := by
  rw [run_attempt]

/-! ## Proper replies -/

/-- The program ends with `x` if the manager exists and the replies are as `told` says. -/
def EndsWith (told : Q → R → Prop) (x : Except Error α) : Program Q R α → Prop
  | done a => .ok a = x
  | fail e => .error e = x
  | ask q next => ∀ r, told q r → EndsWith told x (next r)
  | whetherLinked next => EndsWith told x (next true)

variable {told : Q → R → Prop} {x : Except Error α}

theorem EndsWith.proceed {p : Program Q R α} (h : EndsWith told x p) :
    EndsWith told x (p.proceed true) := by
  induction p with
  | done a => exact h
  | fail e => exact h
  | ask q next _ => exact h
  | whetherLinked next ih => exact ih true h

theorem EndsWith.result {p : Program Q R α} (h : EndsWith told x p) {answer : σ → Q → R × σ}
    (hTold : ∀ s q, told q (answer s q).1) (s : σ) : (p.run answer true s).result = x := by
  induction p generalizing s with
  | done a => exact h
  | fail e => exact h
  | ask q next ih => exact ih _ (h _ (hTold s q)) _
  | whetherLinked next ih => exact ih true h s

/-! ## Modems -/

theorem ends_ofExcept (x : Except Error α) :
    Ends (fun _ => True) (ofExcept x : Program Q R α) 0 := by
  cases x <;> trivial

theorem ends_connection {p : Program Q R α} {n : Nat} (h : Ends (fun _ => True) p n) :
    Ends (fun _ => True) ((connection : Program Q R Unit).bind fun _ => p) n := by
  intro linked
  cases linked with
  | true => exact h
  | false => trivial

theorem ends_asking (q : Bus.Query) (type : Bus.BodyType α) (failure : Bus.Fault → Error) :
    Ends (fun _ => True) (Request.asking q type failure) 1 := fun _ => ends_ofExcept _

theorem ends_property (path interface name : String) (type : Bus.ValueType α) :
    Ends (fun _ => True) (Modem.property path interface name type) 1 :=
  ends_connection (ends_asking _ _ _)

theorem ends_command (path interface member : String) (arguments : List Bus.Value)
    (reply : Bus.BodyType α) (failure : Bus.Fault → Error) :
    Ends (fun _ => True) (Modem.command path interface member arguments reply failure) 1 :=
  ends_connection (ends_asking _ _ _)

end ModemLink.Program
