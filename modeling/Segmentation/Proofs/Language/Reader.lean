import Segmentation.Language.Reader

/-!
# Steps of readers

What a reader built from others accepts and where it refuses, told by the readers it
is built from.  An accepted sequence splits into its steps, a choice is decided by its
first reader, and a repetition reads on as long as values are accepted.
-/

namespace Segmentation.Language.Reader

variable {α β : Type} {reader second : Reader α} {next : α → Reader β}
  {text middle rest stop : List Char} {value : α} {result : β}
  {expected expectation : Option Expectation}

/-- A reader refuses a text, so another one may try it. -/
def Refuses (reader : Reader α) (text : List Char) : Prop :=
  ∃ stop, reader text = .refuse stop

/-! ## Sequences -/

@[simp]
theorem pure_eq_accept_iff {other : α} :
    (Pure.pure value : Reader α) text = .accept other rest ↔ value = other ∧ text = rest := by
  change Outcome.accept value text = _ ↔ _
  rw [Outcome.accept.injEq]

theorem bind_apply :
    (reader >>= next) text =
      match reader text with
      | .accept value rest => next value rest
      | .refuse stop => .refuse stop
      | .fail stop expected => .fail stop expected := by
  rfl

/-- An accepted sequence splits into its two steps. -/
theorem accept_of_bind (h : (reader >>= next) text = .accept result rest) :
    ∃ value middle, reader text = .accept value middle ∧
      next value middle = .accept result rest := by
  rw [bind_apply] at h
  split at h
  · next value middle hfirst => exact ⟨value, middle, hfirst, h⟩
  · contradiction
  · contradiction

theorem bind_of_accept (h : reader text = .accept value middle) :
    (reader >>= next) text = next value middle := by
  rw [bind_apply, h]

/-- A reader whose values are changed accepts what it accepted. -/
theorem map_eq_accept_iff {change : α → β} :
    (reader >>= fun value => Pure.pure (change value)) text = .accept result rest ↔
      ∃ value, reader text = .accept value rest ∧ change value = result := by
  constructor
  · intro h
    obtain ⟨value, middle, hvalue, hpure⟩ := accept_of_bind h
    obtain ⟨rfl, rfl⟩ := pure_eq_accept_iff.1 hpure
    exact ⟨value, hvalue, rfl⟩
  · rintro ⟨value, hvalue, rfl⟩
    rw [bind_of_accept hvalue]
    rfl

/-- A sequence refuses where one of its steps does. -/
theorem refuse_of_bind (h : (reader >>= next) text = .refuse stop) :
    reader text = .refuse stop ∨
      ∃ value middle, reader text = .accept value middle ∧ next value middle = .refuse stop := by
  rw [bind_apply] at h
  split at h
  · next value middle hfirst => exact .inr ⟨value, middle, hfirst, h⟩
  · next stop' hfirst =>
      obtain rfl := Outcome.refuse.inj h
      exact .inl hfirst
  · contradiction

/-- A sequence fails where one of its steps does. -/
theorem fail_of_bind (h : (reader >>= next) text = .fail stop expected) :
    reader text = .fail stop expected ∨
      ∃ value middle, reader text = .accept value middle ∧
        next value middle = .fail stop expected := by
  rw [bind_apply] at h
  split at h
  · next value middle hfirst => exact .inr ⟨value, middle, hfirst, h⟩
  · contradiction
  · next stop' expected' hfirst =>
      obtain ⟨rfl, rfl⟩ := Outcome.fail.inj h
      exact .inl hfirst

theorem Refuses.bind (h : reader.Refuses text) : Refuses (reader >>= next) text := by
  obtain ⟨stop, hrefuse⟩ := h
  refine ⟨stop, ?_⟩
  rw [bind_apply, hrefuse]

/-! ## Choices -/

theorem must_eq_accept_iff :
    must expected reader text = .accept value rest ↔ reader text = .accept value rest := by
  rw [must]
  cases reader text <;> simp

/-- What becomes final fails where the reader refuses, or where it fails itself. -/
theorem fail_of_must (h : must expected reader text = .fail stop expectation) :
    reader text = .refuse stop ∨ reader text = .fail stop expectation := by
  rw [must] at h
  split at h
  · next stop' hrefuse =>
      obtain ⟨rfl, rfl⟩ := Outcome.fail.inj h
      exact .inl hrefuse
  · exact .inr h

theorem orElse_of_accept (h : reader text = .accept value rest) :
    reader.orElse second text = .accept value rest := by
  rw [orElse, h]

theorem Refuses.orElse_eq (h : reader.Refuses text) :
    reader.orElse second text = second text := by
  obtain ⟨stop, hrefuse⟩ := h
  rw [orElse, hrefuse]

theorem Refuses.orElse (h : reader.Refuses text) (hsecond : second.Refuses text) :
    (reader.orElse second).Refuses text := by
  rw [Refuses, h.orElse_eq]
  exact hsecond

/-- An accepted value comes from one of the readers of a choice. -/
theorem accept_of_orElse (h : reader.orElse second text = .accept value rest) :
    reader text = .accept value rest ∨ second text = .accept value rest := by
  rw [Reader.orElse] at h
  split at h
  · right
    exact h
  · left
    exact h

/-- Where a choice refuses, its last reader does. -/
theorem refuse_of_orElse (h : reader.orElse second text = .refuse stop) :
    second text = .refuse stop := by
  rw [Reader.orElse] at h
  split at h
  · exact h
  · next hnot => exact absurd h (hnot stop)

theorem fail_of_orElse (h : reader.orElse second text = .fail stop expected) :
    reader text = .fail stop expected ∨ second text = .fail stop expected := by
  rw [Reader.orElse] at h
  split at h
  · exact .inr h
  · exact .inl h

theorem optional_of_accept (h : reader text = .accept value rest) :
    optional reader text = .accept (some value) rest := by
  rw [optional, h]

theorem Refuses.optional_eq (h : reader.Refuses text) :
    optional reader text = .accept none text := by
  obtain ⟨stop, hrefuse⟩ := h
  rw [optional, hrefuse]

/-- Where an optional value is accepted, it was read or its place is empty. -/
theorem accept_of_optional {found : Option α} (h : optional reader text = .accept found rest) :
    (∃ value, found = some value ∧ reader text = .accept value rest) ∨
      (found = none ∧ rest = text) := by
  rw [optional] at h
  split at h
  · next value middle haccept =>
      obtain ⟨rfl, rfl⟩ := Outcome.accept.inj h
      left
      exact ⟨value, rfl, haccept⟩
  · obtain ⟨rfl, rfl⟩ := Outcome.accept.inj h
    right
    exact ⟨rfl, rfl⟩
  · contradiction

theorem fail_of_optional (h : optional reader text = .fail stop expected) :
    reader text = .fail stop expected := by
  rw [optional] at h
  split at h
  · contradiction
  · contradiction
  · next stop' expected' hfail =>
      obtain ⟨rfl, rfl⟩ := Outcome.fail.inj h
      exact hfail

/-! ## Repetitions -/

theorem upTo_succ_apply (count : Nat) :
    upTo reader (count + 1) text =
      match reader text with
      | .accept value rest =>
        match upTo reader count rest with
        | .accept values rest => .accept (value :: values) rest
        | outcome => outcome
      | .refuse _ => .accept [] text
      | .fail stop expected => .fail stop expected := by
  rfl

theorem Refuses.upTo_eq (h : reader.Refuses text) (count : Nat) :
    upTo reader count text = .accept [] text := by
  obtain ⟨stop, hrefuse⟩ := h
  cases count with
  | zero => rfl
  | succ count => rw [upTo_succ_apply, hrefuse]

theorem upTo_of_accept {values : List α} {count : Nat} (hfirst : reader text = .accept value middle)
    (hrest : upTo reader count middle = .accept values rest) :
    upTo reader (count + 1) text = .accept (value :: values) rest := by
  rw [upTo_succ_apply, hfirst]
  simp only [hrest]

/-- A bound that is no smaller than the text lets one more value be read, and the others. -/
theorem upTo_of_shorter {values : List α} {count : Nat}
    (hfirst : reader text = .accept value middle) (hshorter : middle.length < text.length)
    (hcount : text.length ≤ count)
    (hrest : ∀ {count}, middle.length ≤ count → upTo reader count middle = .accept values rest) :
    upTo reader count text = .accept (value :: values) rest := by
  cases count with
  | zero => omega
  | succ count => exact upTo_of_accept hfirst (hrest (by omega))

/-- What holds of no values and is kept by one more value holds of a repetition. -/
theorem upTo_induction {holds : List Char → List α → List Char → Prop}
    (hnil : ∀ text, holds text [] text)
    (hcons : ∀ {text middle rest value values}, reader text = .accept value middle →
      holds middle values rest → holds text (value :: values) rest)
    {count : Nat} {values : List α} (h : upTo reader count text = .accept values rest) :
    holds text values rest := by
  induction count generalizing text values with
  | zero =>
      obtain ⟨rfl, rfl⟩ := Outcome.accept.inj h
      exact hnil text
  | succ count ih =>
      rw [upTo_succ_apply] at h
      split at h
      · next value middle hfirst =>
          split at h
          · next values' rest' hrest =>
              obtain ⟨rfl, rfl⟩ := Outcome.accept.inj h
              exact hcons hfirst (ih hrest)
          · next hnot =>
              exact absurd h (hnot values rest)
      · obtain ⟨rfl, rfl⟩ := Outcome.accept.inj h
        exact hnil text
      · contradiction

/-- A repetition fails where one of its values does, after the values before it. -/
theorem fail_of_upTo {count : Nat} (h : upTo reader (count + 1) text = .fail stop expected) :
    reader text = .fail stop expected ∨
      ∃ value middle, reader text = .accept value middle ∧
        upTo reader count middle = .fail stop expected := by
  rw [upTo_succ_apply] at h
  split at h
  · next value middle hfirst =>
      split at h
      · contradiction
      · exact .inr ⟨value, middle, hfirst, h⟩
  · contradiction
  · next stop' expected' hfirst =>
      obtain ⟨rfl, rfl⟩ := Outcome.fail.inj h
      exact .inl hfirst

/-! ## Outcomes that do not occur -/

/-- A reader that fails nowhere, though it may refuse. -/
def NeverFails (reader : Reader α) : Prop :=
  ∀ text stop expected, reader text ≠ .fail stop expected

/-- A reader that refuses nowhere, though it may fail. -/
def NeverRefuses (reader : Reader α) : Prop :=
  ∀ text stop, reader text ≠ .refuse stop

theorem neverFails_pure : NeverFails (Pure.pure value) := by
  intro text stop expected h
  contradiction

theorem NeverFails.bind (hfirst : NeverFails reader) (hnext : ∀ value, NeverFails (next value)) :
    NeverFails (reader >>= next) := by
  intro text stop expected h
  obtain h | ⟨value, middle, -, h⟩ := fail_of_bind h
  · exact hfirst text stop expected h
  · exact hnext value middle stop expected h

theorem NeverFails.orElse (hfirst : NeverFails reader) (hsecond : NeverFails second) :
    NeverFails (reader.orElse second) := by
  intro text stop expected h
  obtain h | h := fail_of_orElse h
  · exact hfirst text stop expected h
  · exact hsecond text stop expected h

theorem neverRefuses_pure : NeverRefuses (Pure.pure value) := by
  intro text stop h
  contradiction

theorem NeverRefuses.bind (hfirst : NeverRefuses reader)
    (hnext : ∀ value, NeverRefuses (next value)) : NeverRefuses (reader >>= next) := by
  intro text stop h
  obtain h | ⟨value, middle, -, h⟩ := refuse_of_bind h
  · exact hfirst text stop h
  · exact hnext value middle stop h

theorem neverRefuses_must : NeverRefuses (must expected reader) := by
  intro text stop h
  rw [must] at h
  split at h
  · contradiction
  · next hnot => exact hnot stop h

theorem neverRefuses_upTo (count : Nat) : NeverRefuses (upTo reader count) := by
  induction count with
  | zero => exact neverRefuses_pure
  | succ count ih =>
      intro text stop h
      rw [upTo_succ_apply] at h
      split at h
      · next value middle _ =>
          split at h
          · contradiction
          · exact ih middle stop h
      · contradiction
      · contradiction

theorem neverRefuses_many : NeverRefuses (many reader) := by
  intro text stop
  exact neverRefuses_upTo text.length text stop

end Segmentation.Language.Reader
