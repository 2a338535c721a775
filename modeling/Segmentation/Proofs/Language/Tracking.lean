import Segmentation.Proofs.Language.Stable

/-!
# Where reading stops

A reader that stops in a text has taken the beginning of one that can still be completed.
After what was taken, a line end and then what is missing make it a text in which a value
of the rule is written.  Each combination of readers keeps this up, whether it refuses,
fails or reads on.
-/

namespace Segmentation.Language

open Reader Written

variable {α β γ : Type} {text inner middle rest stop taken : List Char}

/-! ## Completing what was taken -/

/-- A line end is ahead. -/
def Breaks (text : List Char) : Prop :=
  ∃ tail, text = '\n' :: tail

theorem Breaks.admits (h : Breaks text) (rest : List Char) : Admits rest text := by
  obtain ⟨tail, rfl⟩ := h
  exact .line rest tail

/-- Some value of the rule can be written in front of any line end, by a text that fits. -/
def Offers (rule : Rule α) (fits : List Char → Prop) : Prop :=
  ∃ value, ∀ rest, Breaks rest → ∃ text, fits text ∧ rule text value rest

/-- A value of the rule can be written. -/
def Opens (rule : Rule α) : Prop :=
  Offers rule fun _ => True

/-- What was taken can be completed to a value of the rule, by a line end and what is
written after it. -/
def Resumes (rule : Rule α) (taken : List Char) : Prop :=
  Offers rule fun text => ∃ written, Breaks written ∧ text = taken ++ written

/-- What stands in front of `stop` can be completed to a value of the rule. -/
def StopsInside (rule : Rule α) (text stop : List Char) : Prop :=
  ∃ taken, text = taken ++ stop ∧ Resumes rule taken

/-- A rule and, after it, another one that may depend on its value. -/
def Then (first : Rule α) (next : α → Rule β) : Rule β :=
  fun text result rest => ∃ value middle, first text value middle ∧ next value middle result rest

/-- Nothing is written, for one value. -/
def Done (value : α) : Rule α :=
  fun text result rest => result = value ∧ text = rest

section

variable {first : Rule α} {next : α → Rule β} {second : Rule β}

theorem Offers.map {fits : List Char → Prop} (h : Offers first fits) (change : α → β)
    (hle : ∀ {text value rest}, first text value rest → second text (change value) rest) :
    Offers second fits := by
  obtain ⟨value, hvalue⟩ := h
  refine ⟨change value, ?_⟩
  intro rest hrest
  obtain ⟨text, hfits, hfirst⟩ := hvalue rest hrest
  exact ⟨text, hfits, hle hfirst⟩

/-- What can be written can be followed by a rule of which nothing is written yet. -/
theorem Offers.then {fits : List Char → Prop} (h : Offers first fits)
    (hnext : ∀ value, Resumes (next value) []) : Offers (Then first next) fits := by
  obtain ⟨value, hvalue⟩ := h
  obtain ⟨result, hresult⟩ := hnext value
  refine ⟨result, ?_⟩
  intro rest hrest
  obtain ⟨after, ⟨_, hafter, rfl⟩, hsecond⟩ := hresult rest hrest
  obtain ⟨text, hfits, hfirst⟩ := hvalue after hafter
  exact ⟨text, hfits, value, after, hfirst, hsecond⟩

/-- A rule that may write nothing resumes at any line end. -/
theorem resumes_of_empty (value : α) (h : ∀ rest, first rest value rest) : Resumes first [] :=
  ⟨value, fun rest hrest => ⟨rest, ⟨rest, hrest, rfl⟩, h rest⟩⟩

theorem StopsInside.map (h : StopsInside first text stop) (change : α → β)
    (hle : ∀ {text value rest}, first text value rest → second text (change value) rest) :
    StopsInside second text stop := by
  obtain ⟨taken, htext, hresumes⟩ := h
  exact ⟨taken, htext, hresumes.map change hle⟩

theorem StopsInside.then (h : StopsInside first text stop)
    (hnext : ∀ value, Resumes (next value) []) : StopsInside (Then first next) text stop := by
  obtain ⟨taken, htext, hresumes⟩ := h
  exact ⟨taken, htext, hresumes.then hnext⟩

/-- What persists stays in front of what is completed. -/
theorem StopsInside.after {before : List Char → List Char → Prop} (change : β → γ)
    {whole : Rule γ} (hbefore : Persists before text middle) (h : StopsInside second middle stop)
    (hle : ∀ {text middle value rest}, before text middle → second middle value rest →
      whole text (change value) rest) : StopsInside whole text stop := by
  obtain ⟨taken, rfl, hwritten⟩ := hbefore
  obtain ⟨after, rfl, value, hvalue⟩ := h
  refine ⟨taken ++ after, (List.append_assoc ..).symm, change value, ?_⟩
  intro rest hrest
  obtain ⟨_, ⟨written, hbreaks, rfl⟩, hsecond⟩ := hvalue rest hrest
  refine ⟨taken ++ (after ++ written), ⟨written, hbreaks, (List.append_assoc ..).symm⟩, ?_⟩
  exact hle (hwritten _ ((hbreaks.admits stop).append after)) hsecond

end

/-! ## Layout -/

theorem Written.Layout.trans (h : Layout text middle) (hrest : Layout middle rest) :
    Layout text rest := by
  induction h with
  | none => exact hrest
  | blank hblank _ ih => exact .blank hblank (ih hrest)
  | comment hcontent hend _ ih => exact .comment hcontent hend (ih hrest)

theorem persists_skipLayout (text : List Char) : Persists Layout text (skipLayout text) :=
  persists_layout (layout_skipLayout text) (stopsAt_skipLayout text)

/-- A rule that can be written can be written where layout ends. -/
theorem Opens.stopsInside_spaced {rule : Rule α} (h : Opens rule) (text : List Char) :
    StopsInside (Spaced rule) text (skipLayout text) := by
  obtain ⟨taken, htext, hlayout⟩ := persists_skipLayout text
  obtain ⟨value, hvalue⟩ := h
  refine ⟨taken, htext, value, ?_⟩
  intro rest hrest
  obtain ⟨inner, _, hrule⟩ := hvalue rest hrest
  have hline : Layout (taken ++ '\n' :: inner) ('\n' :: inner) := hlayout _ (.line _ inner)
  exact ⟨taken ++ '\n' :: inner, ⟨'\n' :: inner, ⟨inner, rfl⟩, rfl⟩, inner,
    hline.trans (.blank rfl (.none inner)), hrule⟩

theorem Opens.resumes_spaced {rule : Rule α} (h : Opens rule) : Resumes (Spaced rule) [] := by
  obtain ⟨taken, htext, hresumes⟩ := h.stopsInside_spaced []
  obtain ⟨rfl, _⟩ := List.append_eq_nil_iff.1 htext.symm
  exact hresumes

theorem StopsInside.spaced {rule : Rule α} (h : StopsInside rule (skipLayout text) stop) :
    StopsInside (Spaced rule) text stop :=
  h.after id (persists_skipLayout text) fun hlayout hrule => ⟨_, hlayout, hrule⟩

/-! ## Readers -/

/-- Where a reader accepts, what it read persists, and where it fails, it stops inside the rule. -/
structure Tracks (reader : Reader α) (rule : Rule α) : Prop where
  persists : ∀ {text value rest}, reader text = .accept value rest →
    Persists (rule · value ·) text rest
  stopsInside : ∀ {text stop expected}, reader text = .fail stop expected →
    StopsInside rule text stop

/-- A reader for a later step: a line end and a value of the rule can follow the steps before. -/
structure Continues (reader : Reader α) (rule : Rule α) : Prop extends Tracks reader rule where
  resumes : Resumes rule []

/-- A reader refuses at the beginning of a text, or inside the rule. -/
def RefusesInside (reader : Reader α) (rule : Rule α) : Prop :=
  ∀ text stop, reader text = .refuse stop → stop = text ∨ StopsInside rule text stop

section

variable {reader second : Reader α} {rule : Rule α} {after : α → Reader β} {next : α → Rule β}
  {expected : Option Expectation}

theorem tracks_of_stable (hsound : ∀ {text value rest}, reader text = .accept value rest →
    rule text value rest) (hstable : Stable rule) (hnever : NeverFails reader) :
    Tracks reader rule where
  persists h := hstable.persists (hsound h)
  stopsInside h := absurd h (hnever _ _ _)

theorem continues_pure (value : α) : Continues (Pure.pure value) (Done value) where
  persists := by
    intro text found rest h
    obtain ⟨rfl, rfl⟩ := pure_eq_accept_iff.1 h
    exact ⟨[], rfl, fun tail _ => ⟨rfl, rfl⟩⟩
  stopsInside h := absurd h (neverFails_pure _ _ _)
  resumes := resumes_of_empty value fun _ => ⟨rfl, rfl⟩

theorem Tracks.mono {other : Rule α} (h : Tracks reader rule)
    (hle : ∀ {text value rest}, rule text value rest → other text value rest) :
    Tracks reader other where
  persists haccept := (h.persists haccept).mono fun _ _ => hle
  stopsInside hfail := (h.stopsInside hfail).map id hle

/-- A step and those after it, of which nothing is read where the first one fails. -/
theorem Tracks.bind (h : Tracks reader rule)
    (hnext : ∀ value, Continues (after value) (next value)) :
    Tracks (reader >>= after) (Then rule next) where
  persists := by
    intro text result rest haccept
    obtain ⟨value, middle, hfirst, hsecond⟩ := accept_of_bind haccept
    refine ((h.persists hfirst).comp ((hnext value).persists hsecond)).mono ?_
    rintro _ _ ⟨middle, hfirst, hsecond⟩
    exact ⟨value, middle, hfirst, hsecond⟩
  stopsInside := by
    intro text stop expected hfail
    obtain hfirst | ⟨value, middle, hfirst, hsecond⟩ := fail_of_bind hfail
    · exact (h.stopsInside hfirst).then fun value => (hnext value).resumes
    · apply ((hnext value).stopsInside hsecond).after id (h.persists hfirst)
      intro _ middle _ _ hfirst hsecond
      exact ⟨value, middle, hfirst, hsecond⟩

theorem Continues.bind (h : Continues reader rule)
    (hnext : ∀ value, Continues (after value) (next value)) :
    Continues (reader >>= after) (Then rule next) where
  toTracks := h.toTracks.bind hnext
  resumes := h.resumes.then fun value => (hnext value).resumes

theorem Continues.mono {other : Rule α} (h : Continues reader rule)
    (hle : ∀ {text value rest}, rule text value rest → other text value rest) :
    Continues reader other where
  toTracks := h.toTracks.mono hle
  resumes := h.resumes.map id hle

theorem Tracks.map {other : Rule β} (h : Tracks reader rule) (change : α → β)
    (hle : ∀ {text value rest}, rule text value rest → other text (change value) rest) :
    Tracks (reader >>= fun value => Pure.pure (change value)) other := by
  refine (h.bind fun value => continues_pure (change value)).mono ?_
  rintro text _ rest ⟨value, _, hrule, rfl, rfl⟩
  exact hle hrule

theorem Tracks.orElse (h : Tracks reader rule) (hsecond : Tracks second rule) :
    Tracks (reader.orElse second) rule where
  persists := by
    intro text value rest haccept
    obtain haccept | haccept := accept_of_orElse haccept
    · exact h.persists haccept
    · exact hsecond.persists haccept
  stopsInside := by
    intro text stop expected hfail
    obtain hfail | hfail := fail_of_orElse hfail
    · exact h.stopsInside hfail
    · exact hsecond.stopsInside hfail

theorem continues_layout : Continues layout fun text _ rest => Layout text rest where
  persists := by
    intro text _ rest haccept
    obtain ⟨_, rfl⟩ := Outcome.accept.inj haccept
    exact persists_skipLayout text
  stopsInside hfail := by contradiction
  resumes := resumes_of_empty () .none

theorem Tracks.spaced (h : Tracks reader rule) : Tracks (Language.spaced reader) (Spaced rule) where
  persists := by
    intro text value rest haccept
    exact (persists_skipLayout text).comp (h.persists haccept)
  stopsInside hfail := (h.stopsInside hfail).spaced

/-- A reader that refuses after layout stops inside the rule, or where the layout ends. -/
theorem RefusesInside.stopsInside_spaced (h : RefusesInside reader rule) (hopens : Opens rule)
    (hrefuse : Language.spaced reader text = .refuse stop) :
    StopsInside (Spaced rule) text stop := by
  obtain rfl | hinside := h (skipLayout text) stop hrefuse
  · exact hopens.stopsInside_spaced text
  · exact hinside.spaced

theorem Tracks.must_spaced (h : Tracks reader rule) (hopens : Opens rule)
    (hrefuses : RefusesInside reader rule) :
    Continues (must expected (Language.spaced reader)) (Spaced rule) where
  persists haccept := h.spaced.persists (must_eq_accept_iff.1 haccept)
  stopsInside := by
    intro text stop expectation hfail
    obtain hrefuse | hfail := fail_of_must hfail
    · exact hrefuses.stopsInside_spaced hopens hrefuse
    · exact h.spaced.stopsInside hfail
  resumes := hopens.resumes_spaced

theorem Tracks.optional (h : Tracks reader rule) :
    Continues (Reader.optional reader) (Written.Optional rule) where
  persists := by
    intro text found rest haccept
    obtain ⟨value, rfl, hvalue⟩ | ⟨rfl, rfl⟩ := accept_of_optional haccept
    · exact (h.persists hvalue).mono fun _ _ => .present
    · exact ⟨[], rfl, fun tail _ => .absent tail⟩
  stopsInside hfail := (h.stopsInside (fail_of_optional hfail)).map some .present
  resumes := resumes_of_empty none .absent

/-- A repetition stops inside one of its values, after the values before it. -/
theorem Tracks.upTo {rules : Rule (List α)} (h : Tracks reader rule)
    (hnil : ∀ rest, rules rest [] rest)
    (hcons : ∀ {text middle value values rest}, rule text value middle →
      rules middle values rest → rules text (value :: values) rest) (count : Nat) :
    Continues (Reader.upTo reader count) rules where
  persists := by
    intro text values rest haccept
    refine @upTo_induction _ _ _ _ (fun text values rest => Persists (rules · values ·) text rest)
      ?_ ?_ _ _ haccept
    · intro text
      exact ⟨[], rfl, fun tail _ => hnil tail⟩
    · intro text middle rest value values hfirst hrest
      refine ((h.persists hfirst).comp hrest).mono ?_
      rintro _ _ ⟨_, hfirst, hrest⟩
      exact hcons hfirst hrest
  stopsInside := by
    intro text stop expected hfail
    induction count generalizing text with
    | zero => contradiction
    | succ count ih =>
        obtain hfirst | ⟨value, middle, hfirst, hrest⟩ := fail_of_upTo hfail
        · exact (h.stopsInside hfirst).map (fun value => [value]) fun hrule => hcons hrule (hnil _)
        · exact (ih hrest).after (value :: ·) (h.persists hfirst) hcons
  resumes := resumes_of_empty [] hnil

theorem Tracks.many {rules : Rule (List α)} (h : Tracks reader rule)
    (hnil : ∀ rest, rules rest [] rest)
    (hcons : ∀ {text middle value values rest}, rule text value middle →
      rules middle values rest → rules text (value :: values) rest) :
    Continues (Reader.many reader) rules where
  persists haccept := (h.upTo hnil hcons _).persists haccept
  stopsInside hfail := (h.upTo hnil hcons _).stopsInside hfail
  resumes := (h.upTo hnil hcons 0).resumes

end

end Segmentation.Language
