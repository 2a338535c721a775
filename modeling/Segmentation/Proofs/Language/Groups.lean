import Segmentation.Proofs.Language.Clauses

/-!
# Reading groups

Groups are nested to any depth, and the reader of a group is bounded by a depth.  Each
child takes up a part of the text of its group, so the length of the text bounds both
the number of children and how deep they are nested.
-/

namespace Segmentation.Language

open Reader Written

variable {text rest : List Char} {depth : Nat}

/-! ## The choice between clauses -/

section

variable {α : Type} {group : Reader Segmentation.Group} {ofCondition : Condition → α}
  {ofGroup : Segmentation.Group → α} {ofMembership : SegmentRef → MembershipMode → α}

/-- A condition, a group or a membership, and what it becomes. -/
def clause (group : Reader Segmentation.Group) (ofCondition : Condition → α)
    (ofGroup : Segmentation.Group → α) (ofMembership : SegmentRef → MembershipMode → α) :
    Reader α :=
  Reader.orElse (do return ofCondition (← whereClause)) <|
  Reader.orElse (do return ofGroup (← group)) <|
  (do
    let (segment, mode) ← membership
    return ofMembership segment mode)

/-- A reader of groups that tries nothing where their keyword is not written. -/
def NeedsKeyword (group : Reader Segmentation.Group) : Prop :=
  ∀ text, (keyword "group").Refuses text → group.Refuses text

theorem whereClause_refuses (h : (keyword "where").Refuses text) : whereClause.Refuses text :=
  h.bind

theorem membership_refuses (hincl : (keyword "include").Refuses text)
    (hexcl : (keyword "exclude").Refuses text) : membership.Refuses text :=
  (hincl.bind.orElse hexcl.bind).bind

/-- What the choice accepts comes from one of the three clauses. -/
theorem clause_cases {found : α}
    (h : clause group ofCondition ofGroup ofMembership text = .accept found rest) :
    (∃ condition, Where text condition rest ∧ ofCondition condition = found) ∨
      (∃ value, group text = .accept value rest ∧ ofGroup value = found) ∨
      ∃ segment mode, Written.Membership text (segment, mode) rest ∧
        ofMembership segment mode = found := by
  obtain h | h := accept_of_orElse h
  · obtain ⟨condition, hwhere, hfound⟩ := map_eq_accept_iff.1 h
    exact .inl ⟨condition, whereClause_eq_accept_iff.1 hwhere, hfound⟩
  obtain h | h := accept_of_orElse h
  · exact .inr (.inl (map_eq_accept_iff.1 h))
  · obtain ⟨⟨segment, mode⟩, after, hmembership, h⟩ := accept_of_bind h
    obtain ⟨hfound, rfl⟩ := pure_eq_accept_iff.1 h
    exact .inr (.inr ⟨segment, mode, membership_of_accept hmembership, hfound⟩)

theorem clause_of_where {condition : Condition} (h : Where text condition rest) :
    clause group ofCondition ofGroup ofMembership text =
      .accept (ofCondition condition) rest := by
  apply orElse_of_accept
  exact map_eq_accept_iff.2 ⟨condition, whereClause_eq_accept_iff.2 h, rfl⟩

theorem clause_of_group {value : Segmentation.Group} {afterGroup : List Char}
    (hword : Keyword "group" text () afterGroup) (h : group text = .accept value rest) :
    clause group ofCondition ofGroup ofMembership text = .accept (ofGroup value) rest := by
  have hwhere : (keyword "where").Refuses text :=
    keyword_refuses_of_lead (by decide) (by decide) (by decide) hword
  rw [clause, (whereClause_refuses hwhere).bind.orElse_eq]
  apply orElse_of_accept
  exact map_eq_accept_iff.2 ⟨value, h, rfl⟩

theorem clause_of_membership {segment : SegmentRef} {mode : MembershipMode}
    (hgroup : NeedsKeyword group) (h : Written.Membership text (segment, mode) rest)
    (hfollows : Follows rest) :
    clause group ofCondition ofGroup ofMembership text =
      .accept (ofMembership segment mode) rest := by
  have hwhere : (keyword "where").Refuses text :=
    keyword_refuses_of_membership h (by decide) (by decide)
  have hword : (keyword "group").Refuses text :=
    keyword_refuses_of_membership h (by decide) (by decide)
  rw [clause, (whereClause_refuses hwhere).bind.orElse_eq, (hgroup text hword).bind.orElse_eq,
    bind_of_accept (membership_of_written h hfollows)]
  rfl

theorem clause_refuses (hgroup : NeedsKeyword group)
    (h : ∀ word ∈ leads, (keyword word).Refuses text) :
    (clause group ofCondition ofGroup ofMembership).Refuses text :=
  (whereClause_refuses (h "where" (by decide))).bind.orElse <|
    (hgroup text (h "group" (by decide))).bind.orElse <|
    (membership_refuses (h "include" (by decide)) (h "exclude" (by decide))).bind

end

/-! ## Children -/

/-- The child of a group in which groups are nested up to a depth. -/
def child (depth : Nat) : Reader Node :=
  clause (groupUpTo depth) .condition Group.toNode .membership

theorem groupUpTo_succ (depth : Nat) :
    groupUpTo (depth + 1) = (do
      keyword "group"
      let connective ← must (some .groupConnective) (spaced connective)
      must (some .openingBrace) (spaced (literal "\x7b"))
      let children ← many (spaced (child depth))
      must (some .groupItem) (spaced (literal "\x7d"))
      return { connective, children }) := by
  rfl

theorem needsKeyword_groupUpTo (depth : Nat) : NeedsKeyword (groupUpTo depth) := by
  intro text h
  cases depth with
  | zero => exact ⟨text, rfl⟩
  | succ depth => exact h.bind

theorem groupUpTo_of_children {connective : Connective} {children : List Node}
    {afterHead afterChildren : List Char} (hhead : GroupHead text connective afterHead)
    (hchildren : many (spaced (child depth)) afterHead = .accept children afterChildren)
    (hclose : Spaced (Mark "\x7d") afterChildren () rest) :
    groupUpTo (depth + 1) text = .accept { connective, children } rest := by
  obtain ⟨hgroup, hconnective, hopen⟩ := hhead
  rw [groupUpTo_succ, bind_of_accept (keyword_eq_accept_iff.2 hgroup),
    bind_of_accept (must_eq_accept_iff.2 (spacedConnective_eq_accept_iff.2 hconnective)),
    bind_of_accept (must_eq_accept_iff.2 ((spacedMark_eq_accept_iff rfl).2 hopen)),
    bind_of_accept hchildren,
    bind_of_accept (must_eq_accept_iff.2 ((spacedMark_eq_accept_iff rfl).2 hclose))]
  rfl

/-! ## What is read is written -/

/-- One child of a group, without layout in front. -/
inductive Child : Rule Node
  | condition {text rest : List Char} {condition : Condition} (h : Where text condition rest) :
      Child text (.condition condition) rest
  | group {text rest : List Char} {group : Segmentation.Group}
      (h : Written.Group text group rest) : Child text group.toNode rest
  | membership {text rest : List Char} {segment : SegmentRef} {mode : MembershipMode}
      (h : Written.Membership text (segment, mode) rest) :
      Child text (.membership segment mode) rest

/-- One more child goes before the others, whichever of the three it is. -/
theorem children_cons {node : Node} {nodes : List Node} {middle : List Char}
    (hfirst : Spaced Child text node middle) (hrest : Children middle nodes rest) :
    Children text (node :: nodes) rest := by
  obtain ⟨inner, hlayout, hchild⟩ := hfirst
  cases hchild with
  | condition h => exact .condition ⟨inner, hlayout, h⟩ hrest
  | group h =>
      obtain ⟨hhead, hchildren, hclose⟩ := h
      exact .group ⟨inner, hlayout, hhead⟩ hchildren hclose hrest
  | membership h => exact .membership ⟨inner, hlayout, h⟩ hrest

theorem child_of_accept {node : Node}
    (hgroup : ∀ {text group rest},
      groupUpTo depth text = .accept group rest → Written.Group text group rest)
    (h : child depth text = .accept node rest) : Child text node rest := by
  obtain ⟨condition, hwhere, rfl⟩ | ⟨group, hread, rfl⟩ | ⟨segment, mode, hmembership, rfl⟩ :=
    clause_cases h
  · exact .condition hwhere
  · exact .group (hgroup hread)
  · exact .membership hmembership

theorem group_of_accept {group : Segmentation.Group}
    (h : groupUpTo depth text = .accept group rest) : Written.Group text group rest := by
  induction depth generalizing text group rest with
  | zero => contradiction
  | succ depth ih =>
      rw [groupUpTo_succ] at h
      obtain ⟨_, afterGroup, hgroup, h⟩ := accept_of_bind h
      obtain ⟨connective, afterConnective, hconnective, h⟩ := accept_of_bind h
      obtain ⟨_, afterHead, hopen, h⟩ := accept_of_bind h
      obtain ⟨children, afterChildren, hchildren, h⟩ := accept_of_bind h
      obtain ⟨_, afterClose, hclose, h⟩ := accept_of_bind h
      obtain ⟨rfl, rfl⟩ := pure_eq_accept_iff.1 h
      refine .intro (.intro (keyword_eq_accept_iff.1 hgroup)
        (spacedConnective_eq_accept_iff.1 (must_eq_accept_iff.1 hconnective))
        ((spacedMark_eq_accept_iff rfl).1 (must_eq_accept_iff.1 hopen))) ?_
        ((spacedMark_eq_accept_iff rfl).1 (must_eq_accept_iff.1 hclose))
      -- No children are children, and one more child keeps them so.
      refine upTo_induction (fun text => .nil text) ?_ hchildren
      intro text middle rest node nodes hfirst hrest
      exact children_cons (spaced_of_accept (child_of_accept ih) hfirst) hrest

/-! ## What is written is read -/

theorem solid_groupHead : Solid GroupHead where
  settled := by
    rintro text connective rest ⟨hgroup, _, _⟩
    exact (solid_keyword rfl).settled hgroup
  shorter := by
    rintro text connective rest ⟨hgroup, hconnective, hopen⟩
    have hgroup := (solid_keyword rfl).shorter hgroup
    have hconnective := solid_connectiveWord.length_lt_of_spaced hconnective
    have hopen := (solid_mark rfl).length_lt_of_spaced hopen
    omega

theorem length_le_of_children {nodes : List Node} (h : Children text nodes rest) :
    rest.length ≤ text.length := by
  induction h with
  | nil rest => exact Nat.le_refl _
  | condition hfirst _ ih =>
      exact Nat.le_trans ih (Nat.le_of_lt (solid_where.length_lt_of_spaced hfirst))
  | group hhead _ hclose _ ihchildren ihrest =>
      have hhead := solid_groupHead.length_lt_of_spaced hhead
      have hclose := (solid_mark rfl).length_lt_of_spaced hclose
      omega
  | membership hfirst _ ih =>
      exact Nat.le_trans ih (Nat.le_of_lt (solid_membership.length_lt_of_spaced hfirst))

/-- Another child or the closing brace may follow a child. -/
theorem follows_of_children {nodes : List Node} {afterClose : List Char}
    (h : Children text nodes rest) (hclose : Spaced (Mark "\x7d") rest () afterClose) :
    Follows text := by
  cases h with
  | nil => exact follows_of_closing hclose
  | condition hfirst _ =>
      obtain ⟨inner, hlayout, hwhere, _, _, _⟩ := hfirst
      exact follows_of_keyword (by decide) hlayout hwhere
  | group hhead _ _ _ =>
      obtain ⟨inner, hlayout, hgroup, _, _⟩ := hhead
      exact follows_of_keyword (by decide) hlayout hgroup
  | membership hfirst _ =>
      obtain ⟨inner, hlayout, hmembership⟩ := hfirst
      obtain ⟨word, hmode, after, hword⟩ := exists_keyword_of_membership hmembership
      have hlead : word ∈ leads := List.mem_append_right _ (mem_clauseLeads_of_mode hmode)
      exact follows_of_keyword hlead hlayout hword

/-- The children up to a closing brace are read if the bounds are no smaller than the text. -/
theorem children_of_written {nodes : List Node} {afterClose : List Char} (depth : Nat)
    {count : Nat} (h : Children text nodes rest) (hclose : Spaced (Mark "\x7d") rest () afterClose)
    (hdepth : text.length ≤ depth) (hcount : text.length ≤ count) :
    upTo (spaced (child depth)) count text = .accept nodes rest := by
  induction h generalizing depth count afterClose with
  | nil rest =>
      have hrefuse : (spaced (child depth)).Refuses rest := by
        rw [Refuses, spaced_apply, skipLayout_of_closing hclose]
        exact clause_refuses (needsKeyword_groupUpTo depth) fun word hword =>
          keyword_refuses_of_head hword rfl afterClose
      exact hrefuse.upTo_eq count
  | condition hfirst _ ih =>
      have hshorter := solid_where.length_lt_of_spaced hfirst
      obtain ⟨inner, hlayout, hwhere⟩ := hfirst
      refine upTo_of_shorter ?_ hshorter hcount fun hle => ih depth hclose (by omega) hle
      rw [solid_where.spaced_eq hlayout hwhere]
      exact clause_of_where hwhere
  | group hhead hchildren hgroupClose hrest ihchildren ihrest =>
      have hhead' := solid_groupHead.length_lt_of_spaced hhead
      have hchildren' := length_le_of_children hchildren
      have hclose' := (solid_mark rfl).length_lt_of_spaced hgroupClose
      obtain ⟨inner, hlayout, hhead⟩ := hhead
      refine upTo_of_shorter ?_ (by omega) hcount fun hle => ihrest depth hclose (by omega) hle
      rw [solid_groupHead.spaced_eq hlayout hhead]
      -- The group takes one level of the depth, and at least its head of the text.
      cases depth with
      | zero => omega
      | succ depth =>
          have hread := ihchildren depth hgroupClose (by omega) (Nat.le_refl _)
          obtain ⟨hword, _, _⟩ := id hhead
          exact clause_of_group hword (groupUpTo_of_children hhead hread hgroupClose)
  | membership hfirst hrest ih =>
      have hshorter := solid_membership.length_lt_of_spaced hfirst
      obtain ⟨inner, hlayout, hmembership⟩ := hfirst
      refine upTo_of_shorter ?_ hshorter hcount fun hle => ih depth hclose (by omega) hle
      rw [solid_membership.spaced_eq hlayout hmembership]
      exact clause_of_membership (needsKeyword_groupUpTo depth) hmembership
        (follows_of_children hrest hclose)

theorem solid_group : Solid Written.Group where
  settled := by
    rintro text group rest ⟨hhead, _, _⟩
    exact solid_groupHead.settled hhead
  shorter := by
    rintro text group rest ⟨hhead, hchildren, hclose⟩
    have hhead := solid_groupHead.shorter hhead
    have hchildren := length_le_of_children hchildren
    have hclose := (solid_mark rfl).length_lt_of_spaced hclose
    omega

theorem group_eq_accept_iff {group : Segmentation.Group} :
    Language.group text = .accept group rest ↔ Written.Group text group rest := by
  constructor
  · exact group_of_accept
  · intro h
    have hlt := solid_group.shorter h
    obtain ⟨hhead, hchildren, hclose⟩ := h
    have hhead' := solid_groupHead.shorter hhead
    have hread := children_of_written (text.length - 1) hchildren hclose (by omega)
      (Nat.le_refl _)
    rw [Language.group, ← groupUpTo_of_children hhead hread hclose, Nat.sub_add_cancel (by omega)]

end Segmentation.Language
