import ModemLink.Proofs.Program.Ends

/-!
# Courses of programs

What a program can ask, and in which order, when nothing is assumed of the replies: they may come
from a bus that others change meanwhile, the manager may go between any two questions, and whoever
runs the program may give it up at any of them.

* `Course`: the questions of a program and the replies to them, as far as it was run.
* `course_run`: a run in an environment is a course.
* `Asks`: every question that a program can ask satisfies a predicate.
* `course_connection_bind_iff`, `course_asking_bind_iff`: courses, step by step.
* `course_linked_asking_bind_cases`: a program is stopped at its first question, or goes on.
* `taken_of_subscribe`, `exists_taken`: how a program comes to hear signals.
-/

namespace ModemLink.Program

variable {Q R α β σ : Type}

/-- What a program has asked, what it was told, and how it has ended if it has. -/
inductive Course : Program Q R α → List Q → List R → Option (Except Error α) → Prop
  | untouched (p : Program Q R α) : Course p [] [] none
  | waiting (q : Q) (next : R → Program Q R α) : Course (ask q next) [q] [] none
  | done (a : α) : Course (done a) [] [] (some (.ok a))
  | fail (e : Error) : Course (fail e) [] [] (some (.error e))
  | told {q : Q} {next : R → Program Q R α} {r : R} {asked : List Q} {told : List R}
      {x : Option (Except Error α)} (rest : Course (next r) asked told x) :
      Course (ask q next) (q :: asked) (r :: told) x
  | looked {next : Bool → Program Q R α} {linked : Bool} {asked : List Q} {told : List R}
      {x : Option (Except Error α)} (rest : Course (next linked) asked told x) :
      Course (whetherLinked next) asked told x

theorem course_run (p : Program Q R α) (answer : σ → Q → R × σ) (linked : Bool) (s : σ) :
    let outcome := p.run answer linked s
    Course p (outcome.trace.map Prod.fst) (outcome.trace.map Prod.snd) (some outcome.result) := by
  induction p generalizing s with
  | done a => exact .done a
  | fail e => exact .fail e
  | ask q next ih => exact .told (ih _ _)
  | whetherLinked next ih => exact .looked (ih linked s)

theorem run_proceed (p : Program Q R α) (answer : σ → Q → R × σ) (linked : Bool) (s : σ) :
    (p.proceed linked).run answer linked s = p.run answer linked s := by
  induction p with
  | done a => rfl
  | fail e => rfl
  | ask q next _ => rfl
  | whetherLinked next ih => exact ih linked

/-- Every question that the program can ask satisfies `P`. -/
def Asks (P : Q → Prop) : Program Q R α → Prop
  | done _ => True
  | fail _ => True
  | ask q next => P q ∧ ∀ r, Asks P (next r)
  | whetherLinked next => ∀ b, Asks P (next b)

variable {P : Q → Prop}

theorem asks_ofExcept (x : Except Error α) : Asks P (ofExcept x : Program Q R α) := by
  cases x <;> trivial

theorem asks_bind {p : Program Q R α} {f : α → Program Q R β} (h : Asks P p)
    (hNext : ∀ a, Asks P (f a)) : Asks P (p.bind f) := by
  induction p with
  | done a => exact hNext a
  | fail e => trivial
  | ask q next ih => exact ⟨h.1, fun r => ih r (h.2 r)⟩
  | whetherLinked next ih => exact fun b => ih b (h b)

theorem asks_connection : Asks P (connection : Program Q R Unit) := by
  intro linked
  cases linked <;> trivial

theorem Course.asks {p : Program Q R α} {asked : List Q} {told : List R}
    {x : Option (Except Error α)} (h : Course p asked told x) (hAsks : Asks P p) :
    ∀ q ∈ asked, P q := by
  induction h with
  | untouched p => exact fun q hq => absurd hq List.not_mem_nil
  | waiting q next => exact List.forall_mem_singleton.mpr hAsks.1
  | done a => exact fun q hq => absurd hq List.not_mem_nil
  | fail e => exact fun q hq => absurd hq List.not_mem_nil
  | told rest ih => exact List.forall_mem_cons.mpr ⟨hAsks.1, ih (hAsks.2 _)⟩
  | looked rest ih => exact ih (hAsks _)

/-! ## Courses step by step -/

section

variable {asked : List Q} {told : List R} {x : Option (Except Error α)}

theorem course_ask_iff {q : Q} {next : R → Program Q R α} :
    Course (ask q next) asked told x ↔
      (told = [] ∧ x = none ∧ (asked = [] ∨ asked = [q])) ∨
      ∃ r later more, asked = q :: later ∧ told = r :: more ∧ Course (next r) later more x := by
  constructor
  · intro h
    cases h with
    | untouched => exact .inl ⟨rfl, rfl, .inl rfl⟩
    | waiting => exact .inl ⟨rfl, rfl, .inr rfl⟩
    | @told _ _ r later more _ h => exact .inr ⟨r, later, more, rfl, rfl, h⟩
  · rintro (⟨rfl, rfl, rfl | rfl⟩ | ⟨r, later, more, rfl, rfl, h⟩)
    · exact .untouched _
    · exact .waiting q next
    · exact .told h

theorem course_whetherLinked_iff {next : Bool → Program Q R α} :
    Course (whetherLinked next) asked told x ↔
      (asked = [] ∧ told = [] ∧ x = none) ∨ ∃ linked, Course (next linked) asked told x := by
  constructor
  · intro h
    cases h with
    | untouched => exact .inl ⟨rfl, rfl, rfl⟩
    | looked h => exact .inr ⟨_, h⟩
  · rintro (⟨rfl, rfl, rfl⟩ | ⟨linked, h⟩)
    · exact .untouched _
    · exact .looked h

theorem course_done_iff {a : α} : Course (done a : Program Q R α) asked told x ↔
    asked = [] ∧ told = [] ∧ (x = none ∨ x = some (.ok a)) := by
  constructor
  · intro h
    cases h <;> simp
  · rintro ⟨rfl, rfl, rfl | rfl⟩
    · exact .untouched _
    · exact .done a

theorem course_fail_iff {e : Error} : Course (fail e : Program Q R α) asked told x ↔
    asked = [] ∧ told = [] ∧ (x = none ∨ x = some (.error e)) := by
  constructor
  · intro h
    cases h <;> simp
  · rintro ⟨rfl, rfl, rfl | rfl⟩
    · exact .untouched _
    · exact .fail e

/-- What is known by now is an error, or the program goes on with it. -/
theorem course_ofExcept_bind_iff {y : Except Error β} {f : β → Program Q R α} :
    Course ((ofExcept y).bind f) asked told x ↔
      (∃ e, y = .error e ∧ asked = [] ∧ told = [] ∧ (x = none ∨ x = some (.error e))) ∨
      ∃ b, y = .ok b ∧ Course (f b) asked told x := by
  cases y with
  | error e =>
    have hFail : (ofExcept (.error e) : Program Q R β).bind f = fail e := rfl
    simp [hFail, course_fail_iff]
  | ok b =>
    have hDone : (ofExcept (.ok b) : Program Q R β).bind f = f b := rfl
    simp [hDone]

/-- There is no manager any more, or the program goes on. -/
theorem course_connection_bind_iff {f : Unit → Program Q R α} :
    Course (connection.bind f) asked told x ↔
      (asked = [] ∧ told = [] ∧ (x = none ∨ x = some (.error .managerDropped))) ∨
      Course (f ()) asked told x := by
  constructor
  · intro h
    obtain ⟨rfl, rfl, rfl⟩ | ⟨linked, h⟩ := course_whetherLinked_iff.mp h
    · exact .inl ⟨rfl, rfl, .inl rfl⟩
    · cases linked with
      | false => exact .inl (course_fail_iff.mp h)
      | true => exact .inr h
  · rintro (h | h)
    · exact course_whetherLinked_iff.mpr (.inr ⟨false, course_fail_iff.mpr h⟩)
    · exact course_whetherLinked_iff.mpr (.inr ⟨true, h⟩)

end

/-! ## Asking the bus -/

variable {P : Bus.Query → Prop}

theorem asks_asking {q : Bus.Query} (h : P q) (type : Bus.BodyType α)
    (failure : Bus.Fault → Error) : Asks P (Request.asking q type failure) :=
  ⟨h, fun _ => asks_ofExcept _⟩

/-- One question, and what is done with the content of the reply. -/
theorem course_asking_bind_iff {q : Bus.Query} {type : Bus.BodyType α}
    {failure : Bus.Fault → Error} {f : α → Request β} {asked : List Bus.Query}
    {told : List Bus.Reply} {x : Option (Except Error β)} :
    Course ((Request.asking q type failure).bind f) asked told x ↔
      (told = [] ∧ x = none ∧ (asked = [] ∨ asked = [q])) ∨
      ∃ r later more, asked = q :: later ∧ told = r :: more ∧
        ((∃ e, (r.content type).mapError failure = .error e ∧ later = [] ∧ more = [] ∧
            (x = none ∨ x = some (.error e))) ∨
          ∃ a, (r.content type).mapError failure = .ok a ∧ Course (f a) later more x) := by
  have hAsk : (Request.asking q type failure).bind f =
      ask q fun r => (ofExcept ((r.content type).mapError failure)).bind f := rfl
  simp only [hAsk, course_ask_iff, course_ofExcept_bind_iff]

/-- One question that needs a manager, and what is done with the content of the reply. -/
theorem course_linked_asking_bind_iff {q : Bus.Query} {type : Bus.BodyType α}
    {failure : Bus.Fault → Error} {f : α → Request β} {asked : List Bus.Query}
    {told : List Bus.Reply} {x : Option (Except Error β)} :
    Course ((connection.bind fun _ => Request.asking q type failure).bind f) asked told x ↔
      (asked = [] ∧ told = [] ∧ (x = none ∨ x = some (.error .managerDropped))) ∨
      (asked = [q] ∧ told = [] ∧ x = none) ∨
      ∃ r later more, asked = q :: later ∧ told = r :: more ∧
        ((∃ e, (r.content type).mapError failure = .error e ∧ later = [] ∧ more = [] ∧
            (x = none ∨ x = some (.error e))) ∨
          ∃ a, (r.content type).mapError failure = .ok a ∧ Course (f a) later more x) := by
  rw [bind_assoc, course_connection_bind_iff, course_asking_bind_iff]
  constructor
  · rintro (h | ⟨rfl, rfl, rfl | rfl⟩ | h)
    · exact .inl h
    · exact .inl ⟨rfl, rfl, .inl rfl⟩
    · exact .inr (.inl ⟨rfl, rfl, rfl⟩)
    · exact .inr (.inr h)
  · rintro (h | ⟨rfl, rfl, rfl⟩ | h)
    · exact .inl h
    · exact .inr (.inl ⟨rfl, rfl, .inr rfl⟩)
    · exact .inr (.inr h)

theorem mapError_eq_ok {ε δ : Type} {x : Except ε α} {f : ε → δ} {a : α} :
    x.mapError f = .ok a ↔ x = .ok a := by
  cases x with
  | error e => exact ⟨nofun, nofun⟩
  | ok b => exact ⟨fun h => congrArg _ (Except.ok.inj h), fun h => congrArg _ (Except.ok.inj h)⟩

/-- The program gets no further than its first question, or goes on with the content of a reply. -/
theorem course_linked_asking_bind_cases {q : Bus.Query} {type : Bus.BodyType α}
    {failure : Bus.Fault → Error} {f : α → Request β} {asked : List Bus.Query}
    {told : List Bus.Reply} {x : Option (Except Error β)}
    (h : Course ((connection.bind fun _ => Request.asking q type failure).bind f) asked told x) :
    (asked <+: [q] ∧ told.length ≤ 1 ∧ (∀ r ∈ told, ∀ a, r.content type ≠ .ok a) ∧
      ∀ b, x ≠ some (.ok b)) ∨
    ∃ r a later more, asked = q :: later ∧ told = r :: more ∧ r.content type = .ok a ∧
      Course (f a) later more x := by
  rcases course_linked_asking_bind_iff.mp h with
    ⟨rfl, rfl, rfl | rfl⟩ | ⟨rfl, rfl, rfl⟩ | ⟨r, later, more, rfl, rfl, hNext⟩
  · exact .inl ⟨List.nil_prefix, by simp, by simp, by simp⟩
  · exact .inl ⟨List.nil_prefix, by simp, by simp, by simp⟩
  · exact .inl ⟨List.prefix_refl _, by simp, by simp, by simp⟩
  rcases hNext with ⟨e, hFault, rfl, rfl, hEnd⟩ | ⟨a, hContent, hRest⟩
  · refine .inl ⟨List.prefix_refl _, Nat.le_refl 1, fun r' hTold a hContent => ?_,
      fun b hDone => ?_⟩
    · obtain rfl := List.mem_singleton.mp hTold
      cases (mapError_eq_ok.mpr hContent).symm.trans hFault
    · rcases hEnd with rfl | rfl <;> cases hDone
  · exact .inr ⟨r, a, later, more, rfl, rfl, mapError_eq_ok.mp hContent, hRest⟩

/-! ## Runs of questions -/

theorem run_ofExcept (x : Except Error α) (answer : σ → Q → R × σ) (linked : Bool) (s : σ) :
    (ofExcept x : Program Q R α).run answer linked s = ⟨x, s, []⟩ := by
  cases x <;> rfl

theorem run_bind_ofExcept (p : Program Q R α) (f : α → Except Error β) (answer : σ → Q → R × σ)
    (linked : Bool) (s : σ) :
    (p.bind fun a => ofExcept (f a)).run answer linked s =
      let outcome := p.run answer linked s
      ⟨outcome.result.bind f, outcome.state, outcome.trace⟩ := by
  induction p generalizing s with
  | done a => exact run_ofExcept (f a) answer linked s
  | fail e => rfl
  | ask q next ih =>
    have hNext := ih (answer s q).1 (answer s q).2
    simp only [bind, run, hNext]
  | whetherLinked next ih => exact ih linked s

theorem run_asking (q : Bus.Query) (type : Bus.BodyType α) (failure : Bus.Fault → Error)
    (answer : σ → Bus.Query → Bus.Reply × σ) (linked : Bool) (s : σ) :
    (Request.asking q type failure).run answer linked s =
      let reply := answer s q
      ⟨(reply.1.content type).mapError failure, reply.2, [(q, reply.1)]⟩ := by
  simp only [Request.asking, run, run_ofExcept]

theorem run_subscribe (subscription : Bus.Subscription) (answer : σ → Bus.Query → Bus.Reply × σ)
    (linked : Bool) (s : σ) :
    (Request.subscribe subscription).run answer linked s =
      let reply := answer s (.subscribe subscription)
      ⟨((reply.1.content (.single .boolean)).mapError .bus).map fun heard =>
          if heard then some subscription else none,
        reply.2, [(.subscribe subscription, reply.1)]⟩ := by
  rw [Request.subscribe, Program.bind_eq]
  exact (run_map _ _ _ _ _).trans (by rw [run_asking])

/-- Signals are asked for once, and heard if the bus says that there is somebody to send them. -/
theorem taken_of_subscribe {subscription : Bus.Subscription} {heard : Option Bus.Subscription}
    {answer : σ → Bus.Query → Bus.Reply × σ} {linked : Bool} {s : σ}
    (h : ((Request.subscribe subscription).run answer linked s).result = .ok heard) :
    ∃ taken s', answer s (.subscribe subscription) = (.ok [.boolean taken], s') ∧
      (Request.subscribe subscription).run answer linked s =
        ⟨.ok heard, s', [(.subscribe subscription, .ok [.boolean taken])]⟩ ∧
      heard = if taken then some subscription else none := by
  rw [run_subscribe] at h ⊢
  cases hContent : (answer s (.subscribe subscription)).1.content (.single .boolean) with
  | error f =>
    simp only [hContent] at h
    cases h
  | ok taken =>
    have hReply := Bus.Reply.content_boolean hContent
    simp only [hContent] at h ⊢
    obtain rfl := Except.ok.inj h
    exact ⟨taken, _, Prod.ext hReply rfl, by rw [hReply]; rfl, rfl⟩

/-- What is made of a subscription that stands at the end of a program. -/
theorem exists_taken {p : Request α} {subscription : Bus.Subscription}
    {f : Option Bus.Subscription → β} {answer : σ → Bus.Query → Bus.Reply × σ} {linked : Bool}
    {s : σ} {b : β} {q : Request β}
    (hEnd : q = p.bind fun _ => (Request.subscribe subscription).bind fun heard => .done (f heard))
    (h : (q.run answer linked s).result = .ok b) :
    ∃ taken, (.subscribe subscription, .ok [.boolean taken]) ∈ (q.run answer linked s).trace ∧
      b = f (if taken then some subscription else none) := by
  subst hEnd
  obtain ⟨a, hFirst, hRest⟩ := exists_of_result_bind h
  obtain ⟨heard, hHeard, hMade⟩ := exists_of_result_bind hRest
  obtain ⟨taken, s', -, hRun, rfl⟩ := taken_of_subscribe hHeard
  rw [run_bind_of_ok hFirst]
  dsimp only
  rw [run_bind_of_ok hHeard, hRun]
  exact ⟨taken, by simp, (Except.ok.inj hMade).symm⟩

end ModemLink.Program
