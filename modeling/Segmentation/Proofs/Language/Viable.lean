import Segmentation.Proofs.Language.Acceptance
import Segmentation.Proofs.Language.Tracking
import Segmentation.Proofs.Text.Span

/-!
# Viable prefixes

A text that is not read is right up to where its failure points: what stands before that
place is the beginning of a text that is read.  A name or an operand that is missing can
be put there, a word that was cut short is ended by a line end, a quoted text that was
never closed is closed, and a block of statements or children ends with its brace.
-/

namespace Segmentation.Language

open Reader Written

variable {α : Type} {text rest stop taken : List Char}

/-! ## Words -/

theorem neverFails_literal (word : String) : NeverFails (literal word) := by
  intro text stop expected h
  rw [literal] at h
  split at h <;> contradiction

theorem neverFails_keyword (word : String) : NeverFails (keyword word) := by
  refine (neverFails_literal word).bind ?_
  intro _ text stop expected h
  unfold wordEnd at h
  split at h
  · contradiction
  · split at h <;> contradiction

theorem neverFails_quoted : NeverFails quoted := by
  intro text stop expected h
  unfold quoted at h
  split at h
  · split at h <;> contradiction
  · contradiction

theorem neverFails_identifier : NeverFails identifier := by
  intro text stop expected h
  unfold identifier at h
  split at h
  · contradiction
  · split at h <;> contradiction

theorem neverFails_bareWord : NeverFails bareWord := by
  refine NeverFails.bind ?_ fun _ => neverFails_pure
  intro text stop expected h
  unfold run at h
  split at h <;> contradiction

theorem neverFails_operatorName : NeverFails operatorName := by
  intro text stop expected h
  unfold operatorName at h
  split at h
  · split at h <;> contradiction
  · contradiction
  · next hidentifier => exact neverFails_identifier _ _ _ hidentifier

theorem neverFails_operator : NeverFails operator := by
  have hsymbol : ∀ word op, NeverFails (symbol word op) := by
    intro word op
    exact (neverFails_literal word).bind fun _ => neverFails_pure
  exact (hsymbol _ _).orElse ((hsymbol _ _).orElse ((hsymbol _ _).orElse ((hsymbol _ _).orElse
    ((hsymbol _ _).orElse neverFails_operatorName))))

theorem neverFails_count : NeverFails count := by
  intro text stop expected h
  unfold count at h
  split at h
  · contradiction
  split at h
  · contradiction
  split at h
  · dsimp only at h
    split at h <;> contradiction
  · contradiction

theorem tracks_literal (word : String) : Tracks (literal word) (Mark word) :=
  tracks_of_stable literal_eq_accept_iff.1 (stable_mark word) (neverFails_literal word)

theorem tracks_keyword (word : String) : Tracks (keyword word) (Keyword word) :=
  tracks_of_stable keyword_eq_accept_iff.1 (stable_keyword word) (neverFails_keyword word)

theorem tracks_quoted : Tracks quoted Quoted :=
  tracks_of_stable quoted_eq_accept_iff.1 stable_quoted neverFails_quoted

theorem tracks_name : Tracks name Name :=
  tracks_of_stable name_eq_accept_iff.1 stable_name (neverFails_quoted.orElse neverFails_identifier)

theorem tracks_value : Tracks value Value :=
  tracks_of_stable value_eq_accept_iff.1 stable_value (neverFails_quoted.orElse neverFails_bareWord)

theorem tracks_operator : Tracks operator OperatorWord :=
  tracks_of_stable operatorWord_of_accept stable_operatorWord neverFails_operator

theorem tracks_count : Tracks count Count :=
  tracks_of_stable count_of_accept stable_count neverFails_count

/-- A keyword that stands for a value. -/
theorem tracks_keywordValue {word : String} {value : α} {rule : Rule α}
    (hle : ∀ {text rest}, Keyword word text () rest → rule text value rest) :
    Tracks (keyword word >>= fun _ => Pure.pure value) rule :=
  (tracks_keyword word).map (fun _ => value) hle

theorem tracks_connective : Tracks connective ConnectiveWord :=
  (tracks_keywordValue .all).orElse (tracks_keywordValue .any)

theorem tracks_membershipMode : Tracks membershipMode ModeWord :=
  (tracks_keywordValue .incl).orElse (tracks_keywordValue .excl)

/-! ## Words that are missing -/

theorem opens_mark (word : String) : Opens (Mark word) :=
  ⟨(), fun rest _ => ⟨word.toList ++ rest, trivial, rfl⟩⟩

theorem stopsAt_of_breaks {inClass : Char → Bool} (hline : inClass '\n' = false)
    (h : Breaks text) : StopsAt inClass text := by
  obtain ⟨tail, rfl⟩ := h
  exact stopsAt_cons hline tail

theorem opens_keyword (word : String) : Opens (Keyword word) :=
  ⟨(), fun rest hrest => ⟨word.toList ++ rest, trivial, rfl, stopsAt_of_breaks rfl hrest⟩⟩

theorem opens_quoted : Opens Quoted :=
  ⟨"", fun rest _ => ⟨'"' :: '"' :: rest, trivial, .intro .nil⟩⟩

theorem opens_name : Opens Name :=
  opens_quoted.map id .inl

theorem opens_value : Opens Value :=
  opens_quoted.map id .inl

theorem opens_operatorWord : Opens OperatorWord :=
  have hequals : ("=", .equals) ∈ symbols := List.mem_cons_self
  ⟨.equals, fun _ _ => ⟨_, trivial, .symbol hequals⟩⟩

theorem opens_connectiveWord : Opens ConnectiveWord :=
  (opens_keyword "all").map (fun _ => .all) .all

/-! ## Words that end too late -/

theorem stop_eq_of_literal {word : String} (h : literal word text = .refuse stop) :
    stop = text := by
  rw [literal] at h
  split at h
  · contradiction
  · exact (Outcome.refuse.inj h).symm

theorem stop_eq_of_identifier (h : identifier text = .refuse stop) : stop = text := by
  unfold identifier at h
  split at h
  · exact (Outcome.refuse.inj h).symm
  · split at h
    · contradiction
    · exact (Outcome.refuse.inj h).symm

theorem refusesInside_literal (word : String) : RefusesInside (literal word) (Mark word) := by
  intro text stop h
  exact .inl (stop_eq_of_literal h)

theorem resumes_keyword (word : String) : Resumes (Keyword word) word.toList := by
  refine ⟨(), ?_⟩
  intro rest hrest
  exact ⟨word.toList ++ rest, ⟨rest, hrest, rfl⟩, rfl, stopsAt_of_breaks rfl hrest⟩

/-- A keyword with more characters of a word after it can be ended before them. -/
theorem refusesInside_keyword (word : String) : RefusesInside (keyword word) (Keyword word) := by
  intro text stop h
  obtain h | ⟨_, middle, hliteral, h⟩ := refuse_of_bind h
  · exact .inl (stop_eq_of_literal h)
  · have hstop : stop = middle := by
      unfold wordEnd at h
      split at h
      · contradiction
      · split at h
        · exact (Outcome.refuse.inj h).symm
        · contradiction
    obtain rfl := literal_eq_accept_iff.1 hliteral
    exact .inr ⟨word.toList, by rw [hstop], resumes_keyword word⟩

/-- What is no closed text is the content of one that ends after a line end, also if the
last character is a backslash. -/
theorem exists_content_of_unclosed (h : quotedRest? text = none) :
    ∃ content, Content (text ++ ['\n']) content := by
  fun_induction quotedRest? text with
  | case1 => exact ⟨_, .plain (by decide) (by decide) .nil⟩
  | case2 => contradiction
  | case3 => exact ⟨_, .escape .nil⟩
  | case4 c tail ih =>
      obtain ⟨content, hcontent⟩ := ih (Option.map_eq_none_iff.1 h)
      exact ⟨_, .escape hcontent⟩
  | case5 c tail hquote hlone hescape ih =>
      obtain ⟨content, hcontent⟩ := ih (Option.map_eq_none_iff.1 h)
      refine ⟨_, .plain hquote ?_ hcontent⟩
      rintro rfl
      cases tail with
      | nil => exact hlone rfl rfl
      | cons d tail => exact hescape d tail rfl rfl

/-- A quoted text that is not closed can be closed at the end. -/
theorem refusesInside_quoted : RefusesInside quoted Quoted := by
  intro text stop h
  unfold quoted at h
  split at h
  · next tail =>
      split at h
      · contradiction
      · next hunclosed =>
          obtain rfl := Outcome.refuse.inj h
          obtain ⟨content, hcontent⟩ := exists_content_of_unclosed hunclosed
          refine .inr ⟨'"' :: tail, (List.append_nil _).symm, String.ofList content, ?_⟩
          intro rest _
          have hclosed : tail ++ ['\n'] ++ '"' :: rest = tail ++ '\n' :: '"' :: rest :=
            List.append_assoc ..
          exact ⟨'"' :: (tail ++ ['\n'] ++ '"' :: rest),
            ⟨'\n' :: '"' :: rest, ⟨'"' :: rest, rfl⟩, congrArg _ hclosed⟩, .intro hcontent⟩
  · exact .inl (Outcome.refuse.inj h).symm

theorem refusesInside_name : RefusesInside name Name := by
  intro text stop h
  exact .inl (stop_eq_of_identifier (refuse_of_orElse h))

theorem refusesInside_value : RefusesInside value Value := by
  intro text stop h
  obtain h | ⟨_, _, _, h⟩ := refuse_of_bind (refuse_of_orElse h)
  · unfold run at h
    split at h
    · exact .inl (Outcome.refuse.inj h).symm
    · contradiction
  · contradiction

theorem refusesInside_operator : RefusesInside operator OperatorWord := by
  intro text stop h
  have h : operatorName text = .refuse stop := refuse_of_orElse (refuse_of_orElse
    (refuse_of_orElse (refuse_of_orElse (refuse_of_orElse h))))
  unfold operatorName at h
  split at h
  · split at h
    · contradiction
    · exact .inl (Outcome.refuse.inj h).symm
  · next hidentifier =>
      obtain rfl := Outcome.refuse.inj h
      exact .inl (stop_eq_of_identifier hidentifier)
  · contradiction

theorem refusesInside_connective : RefusesInside connective ConnectiveWord := by
  intro text stop h
  obtain h | ⟨_, _, _, h⟩ := refuse_of_bind (refuse_of_orElse h)
  · obtain hstart | hinside := refusesInside_keyword "any" text stop h
    · exact .inl hstart
    · exact .inr (hinside.map (fun _ => .any) .any)
  · contradiction

/-! ## Conditions -/

theorem continues_spacedQuoted (expected : Option Expectation) :
    Continues (must expected (spaced quoted)) (Spaced Quoted) :=
  tracks_quoted.must_spaced opens_quoted refusesInside_quoted

theorem continues_spacedName (expected : Option Expectation) :
    Continues (must expected (spaced name)) (Spaced Name) :=
  tracks_name.must_spaced opens_name refusesInside_name

theorem continues_spacedValue (expected : Option Expectation) :
    Continues (must expected (spaced value)) (Spaced Value) :=
  tracks_value.must_spaced opens_value refusesInside_value

theorem continues_spacedConnective (expected : Option Expectation) :
    Continues (must expected (spaced connective)) (Spaced ConnectiveWord) :=
  tracks_connective.must_spaced opens_connectiveWord refusesInside_connective

theorem continues_spacedMark (expected : Option Expectation) (word : String) :
    Continues (must expected (spaced (literal word))) (Spaced (Mark word)) :=
  (tracks_literal word).must_spaced (opens_mark word) (refusesInside_literal word)

/-- The word before an upper bound, and the bound. -/
def UpperBound : Rule String :=
  Then (Keyword "and") fun _ => Spaced Value

theorem continues_upperBound : Continues
    (must (some .upperBound) (spaced (keyword "and") >>= fun _ => spaced value))
    (Spaced UpperBound) := by
  have hvalue : Resumes (Spaced Value) [] := opens_value.resumes_spaced
  have hreader : (spaced (keyword "and") >>= fun _ => spaced value) =
      spaced (keyword "and" >>= fun _ => spaced value) := rfl
  rw [hreader]
  refine Tracks.must_spaced ?_ ((opens_keyword "and").then fun _ => hvalue) ?_
  · exact (tracks_keyword "and").bind fun _ => ⟨tracks_value.spaced, hvalue⟩
  · intro text stop h
    obtain h | ⟨_, middle, hand, h⟩ := refuse_of_bind h
    · obtain hstart | hinside := refusesInside_keyword "and" text stop h
      · exact .inl hstart
      · exact .inr (hinside.then fun _ => hvalue)
    · right
      have hinside := refusesInside_value.stopsInside_spaced opens_value h
      apply hinside.after id ((tracks_keyword "and").persists hand)
      intro _ middle _ _ hand hvalue
      exact ⟨(), middle, hand, hvalue⟩

/-- What follows the field and the operator of a condition. -/
def OperandsOf (field : String) (op : Operator) : Rule Condition :=
  fun text condition rest =>
    ∃ value upper, condition = ⟨field, op, value, upper⟩ ∧ Operands op text value upper rest

theorem tracks_where : Tracks whereClause Where := by
  have hchain : Tracks whereClause (Then (Keyword "where") fun _ => Then (Spaced Name) fun field =>
      Then (Spaced OperatorWord) fun op => OperandsOf field op) := by
    refine (tracks_keyword "where").bind fun _ => ?_
    refine (continues_spacedName _).bind fun field => ?_
    refine (tracks_operator.must_spaced opens_operatorWord refusesInside_operator).bind fun op => ?_
    split
    · next hvalue =>
        refine (continues_pure _).mono ?_
        rintro text _ rest ⟨rfl, rfl⟩
        exact ⟨none, none, rfl, .none (by simpa using hvalue)⟩
    · next hvalue =>
        have hvalue : op.needsValue = true := by simpa using hvalue
        cases hupper : op.needsUpper with
        | false =>
            refine ((continues_spacedValue _).bind fun low => continues_pure _).mono ?_
            rintro text _ rest ⟨low, _, hlow, rfl, rfl⟩
            exact ⟨some low, none, rfl, .value hvalue hupper hlow⟩
        | true =>
            refine ((continues_spacedValue _).bind fun low =>
              continues_upperBound.bind fun high => continues_pure _).mono ?_
            rintro text _ rest ⟨low, _, hlow, high, _, hbound, rfl, rfl⟩
            obtain ⟨inner, hlayout, _, _, hand, hhigh⟩ := hbound
            exact ⟨some low, some high, rfl, .range hupper hlow ⟨inner, hlayout, hand⟩ hhigh⟩
  refine hchain.mono ?_
  rintro text _ rest ⟨_, _, hwhere, field, _, hfield, op, _, hoperator, value, upper, rfl,
    hoperands⟩
  exact .intro hwhere hfield hoperator hoperands

/-! ## Memberships and groups -/

theorem tracks_membership : Tracks membership Written.Membership := by
  have hchain : Tracks membership (Then ModeWord fun mode => Then (Spaced Quoted) fun id =>
      Then (Written.Optional (Spaced Quoted)) fun name =>
      Then (Written.Optional (Spaced Count)) fun count =>
      Done ({ id, name := name.getD id, count := count.getD 0 }, mode)) := by
    refine tracks_membershipMode.bind fun mode => ?_
    refine (continues_spacedQuoted _).bind fun id => ?_
    refine tracks_quoted.spaced.optional.bind fun name => ?_
    refine tracks_count.spaced.optional.bind fun count => ?_
    exact continues_pure _
  refine hchain.mono ?_
  rintro text _ rest ⟨mode, _, hmode, id, _, hid, name, _, hname, count, _, hcount, rfl, rfl⟩
  exact .intro hmode hid hname hcount

/-- A choice between clauses stops inside the one that was begun. -/
theorem tracks_clause {group : Reader Segmentation.Group} {ofCondition : Condition → α}
    {ofGroup : Segmentation.Group → α} {ofMembership : SegmentRef → MembershipMode → α}
    {rule : Rule α} (hgroup : Tracks group Written.Group)
    (hconditions : ∀ {text condition rest}, Where text condition rest →
      rule text (ofCondition condition) rest)
    (hgroups : ∀ {text group rest}, Written.Group text group rest →
      rule text (ofGroup group) rest)
    (hmemberships : ∀ {text segment mode rest}, Written.Membership text (segment, mode) rest →
      rule text (ofMembership segment mode) rest) :
    Tracks (clause group ofCondition ofGroup ofMembership) rule := by
  have hmembership : Tracks (membership >>= fun entry =>
      Pure.pure (ofMembership entry.1 entry.2)) rule :=
    tracks_membership.map (fun entry => ofMembership entry.1 entry.2) hmemberships
  exact (tracks_where.map ofCondition hconditions).orElse
    ((hgroup.map ofGroup hgroups).orElse hmembership)

theorem tracks_groupUpTo (depth : Nat) : Tracks (groupUpTo depth) Written.Group := by
  induction depth with
  | zero => exact ⟨nofun, nofun⟩
  | succ depth ih =>
      have hchild : Tracks (child depth) Child := tracks_clause ih .condition .group .membership
      have hchildren : Continues (many (spaced (child depth))) Children :=
        hchild.spaced.many .nil children_cons
      have hchain : Tracks (groupUpTo (depth + 1)) (Then (Keyword "group") fun _ =>
          Then (Spaced ConnectiveWord) fun connective => Then (Spaced (Mark "\x7b")) fun _ =>
          Then Children fun children => Then (Spaced (Mark "\x7d")) fun _ =>
          Done { connective, children }) := by
        rw [groupUpTo_succ]
        refine (tracks_keyword "group").bind fun _ => ?_
        refine (continues_spacedConnective _).bind fun connective => ?_
        refine (continues_spacedMark _ _).bind fun _ => ?_
        refine hchildren.bind fun children => ?_
        refine (continues_spacedMark _ _).bind fun _ => ?_
        exact continues_pure _
      refine hchain.mono ?_
      rintro text _ rest ⟨_, _, hgroup, connective, _, hconnective, _, _, hopen, children, _,
        hchildren, _, _, hclose, rfl, rfl⟩
      exact .intro (.intro hgroup hconnective hopen) hchildren hclose

theorem tracks_group : Tracks group Written.Group where
  persists haccept := (tracks_groupUpTo _).persists haccept
  stopsInside hfail := (tracks_groupUpTo _).stopsInside hfail

/-! ## Statements and segments -/

/-- A keyword and an operand after it. -/
theorem tracks_operand {β : Type} {word : String} {operand : Reader α} {rule : Rule α}
    {build : α → β} {whole : Rule β} (h : Continues (must none (spaced operand)) (Spaced rule))
    (hle : ∀ {text after value rest}, Keyword word text () after → Spaced rule after value rest →
      whole text (build value) rest) :
    Tracks (keyword word >>= fun _ => must none (spaced operand) >>= fun value =>
      Pure.pure (build value)) whole := by
  have hoperand := h.bind fun value => continues_pure (build value)
  refine ((tracks_keyword word).bind fun _ => hoperand).mono ?_
  rintro text _ rest ⟨_, _, hword, value, _, hvalue, rfl, rfl⟩
  exact hle hword hvalue

theorem tracks_statement : Tracks statement (Spaced Written.Statement) := by
  rw [statement_eq]
  have hdescription := tracks_operand (continues_spacedQuoted none) Written.Statement.description
  have hdataset := tracks_operand (continues_spacedName none) Written.Statement.dataset
  have hconnective :=
    tracks_operand (continues_spacedConnective none) Written.Statement.connective
  have hclause : Tracks (clause group .condition .group .membership) Written.Statement :=
    tracks_clause tracks_group .condition .group .membership
  exact (hdescription.orElse (hdataset.orElse (hconnective.orElse hclause))).spaced

/-- A text that is a segment if only layout is left after it. -/
def SegmentUpTo : Rule Definition :=
  fun text _ rest => Layout rest [] → ∃ name statements, Segment text name statements

theorem tracks_segment : Tracks segment SegmentUpTo := by
  have hchain : Tracks segment (Then (Spaced (Keyword "segment")) fun _ =>
      Then (Spaced Quoted) fun name => Then (Spaced (Mark "\x7b")) fun _ =>
      Then Statements fun statements => Then (Spaced (Mark "\x7d")) fun _ =>
      Then (fun text _ rest => Layout text rest) fun (_ : Unit) =>
      Done (statements.foldl Language.Statement.addTo { name })) := by
    refine Tracks.bind ?_ fun _ => ?_
    · refine Continues.toTracks ((tracks_keyword "segment").must_spaced ?_ ?_)
      · exact opens_keyword "segment"
      · exact refusesInside_keyword "segment"
    refine (continues_spacedQuoted _).bind fun name => ?_
    refine (continues_spacedMark _ _).bind fun _ => ?_
    refine (tracks_statement.many .nil .cons).bind fun statements => ?_
    refine (continues_spacedMark _ _).bind fun _ => ?_
    refine continues_layout.bind fun _ => ?_
    exact continues_pure _
  refine hchain.mono ?_
  rintro text _ rest ⟨_, _, hsegment, name, _, hname, _, _, hopen, statements, _, hstatements, _, _,
    hclose, _, _, hlayout, rfl, rfl⟩ hend
  exact ⟨name, statements,
    .intro hsegment hname hopen hstatements hclose (hlayout.trans hend)⟩

theorem neverRefuses_segment : NeverRefuses segment := by
  refine neverRefuses_must.bind fun _ => ?_
  refine neverRefuses_must.bind fun _ => ?_
  refine neverRefuses_must.bind fun _ => ?_
  refine neverRefuses_many.bind fun _ => ?_
  refine neverRefuses_must.bind fun _ => ?_
  refine NeverRefuses.bind ?_ fun _ => neverRefuses_pure
  intro text stop h
  contradiction

theorem exists_wholeText_of_segmentUpTo {definition : Definition}
    (h : SegmentUpTo text definition rest) (hend : Layout rest []) :
    ∃ found, wholeText text = .accept found [] := by
  obtain ⟨name, statements, hsegment⟩ := h hend
  exact ⟨denote name statements, wholeText_eq_accept_iff.2 ⟨rfl, name, statements, hsegment, rfl⟩⟩

theorem layout_lineEnd : Layout ['\n'] [] :=
  .blank rfl (.none [])

/-- A failure of the whole text lies inside a segment. -/
theorem exists_wholeText_of_fail {expected : Option Expectation}
    (h : wholeText text = .fail stop expected) :
    ∃ taken written definition, text = taken ++ stop ∧
      wholeText (taken ++ written) = .accept definition [] := by
  obtain h | ⟨_, middle, _, h⟩ := fail_of_bind h
  · obtain ⟨taken, htext, _, hresumes⟩ := tracks_segment.stopsInside h
    obtain ⟨_, ⟨written, _, rfl⟩, hsegment⟩ := hresumes ['\n'] ⟨[], rfl⟩
    obtain ⟨definition, hwhole⟩ := exists_wholeText_of_segmentUpTo hsegment layout_lineEnd
    exact ⟨taken, written, definition, htext, hwhole⟩
  · obtain h | ⟨_, _, _, h⟩ := fail_of_bind h
    · unfold endOfText at h
      split at h <;> contradiction
    · contradiction

/-- A refusal of the whole text lies after a segment. -/
theorem exists_wholeText_of_refuse (h : wholeText text = .refuse stop) :
    ∃ taken written definition, text = taken ++ stop ∧
      wholeText (taken ++ written) = .accept definition [] := by
  obtain h | ⟨_, middle, hsegment, h⟩ := refuse_of_bind h
  · exact absurd h (neverRefuses_segment text stop)
  · obtain h | ⟨_, _, _, h⟩ := refuse_of_bind h
    · have hstop : middle = stop := by
        unfold endOfText at h
        split at h
        · contradiction
        · exact Outcome.refuse.inj h
      obtain ⟨taken, htext, hpersists⟩ := tracks_segment.persists hsegment
      have hsegment := hpersists ['\n'] (.line middle [])
      obtain ⟨definition, hwhole⟩ := exists_wholeText_of_segmentUpTo hsegment layout_lineEnd
      exact ⟨taken, ['\n'], definition, hstop ▸ htext, hwhole⟩
    · contradiction

/-- A failure to read lies where a text that is read may go on. -/
theorem exists_wholeText_of_error {text : String} {failure : Failure}
    (h : read text = .error failure) :
    ∃ taken stop written definition, text.toList = taken ++ stop ∧
      failure.offset = Span.byteLength taken ∧
      wholeText (taken ++ written) = .accept definition [] := by
  have hoffset : ∀ {taken stop : List Char} {expected : Option Expectation},
      text.toList = taken ++ stop →
        (failureAt text stop expected).offset = Span.byteLength taken := by
    intro taken stop expected htext
    calc
      (failureAt text stop expected).offset
          = Span.byteLength text.toList - Span.byteLength stop := by
            rw [failureAt, Span.utf8ByteSize_eq]
      _ = Span.byteLength taken + Span.byteLength stop - Span.byteLength stop := by
            rw [htext, Span.byteLength_append]
      _ = Span.byteLength taken := Nat.add_sub_cancel ..
  rw [read] at h
  split at h
  · contradiction
  · next stop hwhole =>
      obtain rfl := Except.error.inj h
      obtain ⟨taken, written, definition, htext, hread⟩ := exists_wholeText_of_refuse hwhole
      exact ⟨taken, stop, written, definition, htext, hoffset htext, hread⟩
  · next stop expected hwhole =>
      obtain rfl := Except.error.inj h
      obtain ⟨taken, written, definition, htext, hread⟩ := exists_wholeText_of_fail hwhole
      exact ⟨taken, stop, written, definition, htext, hoffset htext, hread⟩

/-- A failure points between two characters of the text, and what stands before that place is
the beginning of a text that is read. -/
theorem viable_of_read_eq_error {text : String} {failure : Failure}
    (h : read text = .error failure) :
    failure.offset ≤ text.utf8ByteSize ∧ String.Pos.Raw.IsValid text ⟨failure.offset⟩ ∧
    ∃ before after continuation definition, text = before ++ after ∧
      before.utf8ByteSize = failure.offset ∧ read (before ++ continuation) = .ok definition := by
  obtain ⟨taken, stop, written, definition, htext, hoffset, hwhole⟩ := exists_wholeText_of_error h
  have hparts : text = String.ofList taken ++ String.ofList stop := by
    rw [← String.ofList_append, ← htext, String.ofList_toList]
  have hsize : (String.ofList taken).utf8ByteSize = failure.offset := by
    rw [Span.utf8ByteSize_ofList, hoffset]
  have hvalid : String.Pos.Raw.IsValid text ⟨failure.offset⟩ := by
    rw [String.Pos.Raw.isValid_iff_exists_append]
    refine ⟨_, _, hparts, ?_⟩
    rw [← hsize]
    rfl
  have hread : read (String.ofList taken ++ String.ofList written) = .ok definition := by
    rw [read_eq_ok_iff_wholeText, ← String.ofList_append, String.toList_ofList]
    exact ⟨[], hwhole⟩
  exact ⟨hvalid.le_utf8ByteSize, hvalid, _, _, _, definition, hparts, hsize, hread⟩

/-- A condition whose upper bound has another word in front of it. -/
def misspelled : String :=
  "segment \"é\" \x7b where age between 18 or 25 \x7d"

theorem viable_of_misspelled :
    read misspelled = .error ⟨misspelled, 36, some .upperBound⟩ ∧
    36 ≤ misspelled.utf8ByteSize ∧ String.Pos.Raw.IsValid misspelled ⟨36⟩ ∧
    ∃ before after continuation definition, misspelled = before ++ after ∧
      before.utf8ByteSize = 36 ∧ read (before ++ continuation) = .ok definition := by
  have h : read misspelled = .error ⟨misspelled, 36, some .upperBound⟩ := by decide +kernel
  exact ⟨h, viable_of_read_eq_error h⟩

end Segmentation.Language
