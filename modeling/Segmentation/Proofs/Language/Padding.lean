import Segmentation.Proofs.Language.Acceptance
import Segmentation.Proofs.Language.Phrase
import Segmentation.Proofs.Language.Tracking

/-!
# Padding

Layout may be put in at the start of a text and directly after any of its tokens.  The
padded text is spelled with the same tokens: each still ends where it ended, because no
token goes on with a character that layout begins with.  So a text and a padded one are
read as the same definition.
-/

namespace Segmentation.Language

open Written (StopsAt Layout LineEnds)

variable {text after padding : List Char} {tokens : List Token}

/-- Blanks and comments that are complete, so that anything may follow them. -/
inductive Padding : List Char → Prop
  | nil : Padding []
  | blank {c : Char} {padding : List Char} (hblank : isLayoutBlank c) (h : Padding padding) :
      Padding (c :: padding)
  | comment {content lineEnd padding : List Char}
      (hcontent : ∀ c ∈ content, c ≠ '\n' ∧ c ≠ '\r')
      (hend : lineEnd = ['\n'] ∨ lineEnd = ['\r', '\n']) (h : Padding padding) :
      Padding ('#' :: (content ++ (lineEnd ++ padding)))

/-- A text that is spelled with tokens, and the text with padding put in at its start and
directly after each of the tokens.  A padding may be empty. -/
inductive Padded : List Token → List Char → List Char → Prop
  | ending {ending padding : List Char} (hlayout : Layout ending []) (hpadding : Padding padding) :
      Padded [] ending (padding ++ ending)
  | token {token : Token} {tokens : List Token} {layout after padding padded : List Char}
      (hlayout : Layout (layout ++ (token.chars ++ after)) (token.chars ++ after))
      (hstop : StopsAt token.goesOnWith after) (hpadding : Padding padding)
      (h : Padded tokens after padded) :
      Padded (token :: tokens) (layout ++ (token.chars ++ after))
        (padding ++ (layout ++ (token.chars ++ padded)))

/-! ## Tokens and layout -/

theorem any_layoutStarts_goesOnWith (token : Token) :
    layoutStarts.any token.goesOnWith = false := by
  cases token <;> rfl

theorem isLayoutBlank_eq_false {inClass : Char → Bool} {c : Char}
    (hclass : layoutStarts.any inClass = false) (hc : inClass c) : isLayoutBlank c = false := by
  rw [← Bool.not_eq_true]
  intro hblank
  rw [eq_false_of_mem_layoutStarts hclass (mem_layoutStarts_of_isLayoutBlank hblank)] at hc
  contradiction

def isSolid (c : Char) : Bool :=
  !isLayoutBlank c

theorem isSolid_of_class {inClass : Char → Bool} {c : Char}
    (hclass : layoutStarts.any inClass = false) (hc : inClass c) : isSolid c := by
  rw [isSolid, isLayoutBlank_eq_false hclass hc]
  rfl

/-- A token begins with a character that is no blank. -/
theorem Token.exists_head (token : Token) : ∃ c cs, isSolid c ∧ token.chars = c :: cs := by
  cases token with
  | keyword word hword =>
      have hwords : ∀ word ∈ keywords, word.toList.head?.any isSolid := by decide
      exact exists_head_of_any (hwords word hword)
  | mark word hword =>
      have hwords : ∀ word ∈ marks, word.toList.head?.any isSolid := by decide
      exact exists_head_of_any (hwords word hword)
  | quoted written _ _ => exact ⟨'"', written ++ ['"'], rfl, rfl⟩
  | identifier c cs hstart _ => exact ⟨c, cs, isSolid_of_class rfl hstart, rfl⟩
  | bareWord cs hne hclass =>
      obtain ⟨c, cs, rfl⟩ := List.exists_cons_of_ne_nil hne
      exact ⟨c, cs, isSolid_of_class rfl (hclass c List.mem_cons_self), rfl⟩
  | count number =>
      obtain ⟨c, cs, hc, hchars⟩ := exists_isDigit_of_count (.intro number [])
      rw [List.append_nil, List.append_nil] at hchars
      exact ⟨c, cs, isSolid_of_class rfl hc, hchars⟩

/-- What follows a token may be replaced, as what the token begins with stays. -/
theorem Token.admits (token : Token) (rest tail : List Char) :
    Admits (token.chars ++ rest) (token.chars ++ tail) := by
  obtain ⟨c, cs, _, hchars⟩ := token.exists_head
  rw [hchars]
  exact .same c _ _

theorem Token.stopsAt_blank (token : Token) (rest : List Char) :
    StopsAt isLayoutBlank (token.chars ++ rest) := by
  obtain ⟨c, cs, hc, hchars⟩ := token.exists_head
  rw [hchars]
  exact stopsAt_cons (Bool.not_eq_true' _ ▸ hc) _

/-! ## Layout -/

theorem Padding.layout_append (h : Padding padding) (rest : List Char) :
    Layout (padding ++ rest) rest := by
  induction h with
  | nil => exact .none rest
  | blank hblank _ ih => exact .blank hblank ih
  | comment hcontent hend _ ih =>
      rw [List.cons_append, List.append_assoc, List.append_assoc]
      obtain rfl | rfl := hend
      · exact .comment hcontent (.inr (.inl ⟨_, rfl⟩)) (.blank rfl ih)
      · exact .comment hcontent (.inr (.inr ⟨_, rfl⟩)) (.blank rfl (.blank rfl ih))

/-- Layout up to a token is layout up to it whatever follows the token. -/
theorem layout_replace {token : Token} {layout : List Char}
    (h : Layout (layout ++ (token.chars ++ after)) (token.chars ++ after)) (tail : List Char) :
    Layout (layout ++ (token.chars ++ tail)) (token.chars ++ tail) := by
  obtain ⟨taken, htaken, hlayout⟩ := persists_layout h (token.stopsAt_blank after)
  obtain rfl := List.append_cancel_right htaken
  exact hlayout _ (token.admits after tail)

/-! ## Padded texts -/

namespace Padded

variable {padded : List Char}

/-- A token without layout in front. -/
theorem tight {token : Token} (hstop : StopsAt token.goesOnWith after) (hpadding : Padding padding)
    (h : Padded tokens after padded) :
    Padded (token :: tokens) (token.chars ++ after) (padding ++ (token.chars ++ padded)) :=
  @Padded.token token tokens [] after padding padded (.none _) hstop hpadding h

/-- A word that ended before a text ends before the padded text. -/
theorem stopsAt (h : Padded tokens text padded) {inClass : Char → Bool}
    (hclass : layoutStarts.any inClass = false) (hstop : StopsAt inClass text) :
    StopsAt inClass padded := by
  cases h with
  | ending _ hpadding => exact stopsAt_of_layout inClass hclass (hpadding.layout_append _) hstop
  | @token token _ layout after _ padded _ _ hpadding _ =>
      refine stopsAt_of_layout inClass hclass (hpadding.layout_append _) ?_
      have hadmits := (token.admits after padded).append layout
      exact hadmits.stopsAt (eq_false_of_mem_layoutStarts hclass (by decide)) hstop

theorem spelledWhole_left (h : Padded tokens text padded) : SpelledWhole tokens text := by
  induction h with
  | @ending ending _ hlayout _ => exact ⟨ending, .nil ending, hlayout⟩
  | token hlayout hstop _ _ ih =>
      obtain ⟨ending, hspelled, hend⟩ := ih
      exact ⟨ending, .cons hlayout hstop hspelled, hend⟩

/-- A padded text is spelled with the same tokens. -/
theorem spelledWhole_right (h : Padded tokens text padded) : SpelledWhole tokens padded := by
  induction h with
  | @ending ending padding hlayout hpadding =>
      exact ⟨padding ++ ending, .nil _, (hpadding.layout_append ending).trans hlayout⟩
  | @token token _ layout _ padding padded hlayout hstop hpadding h ih =>
      obtain ⟨ending, hspelled, hend⟩ := ih
      have hinner := (hpadding.layout_append _).trans (layout_replace hlayout padded)
      exact ⟨ending, .cons hinner (h.stopsAt (any_layoutStarts_goesOnWith token) hstop) hspelled, hend⟩

end Padded

/-! ## Reading -/

/-- The tokens of a segment with which a text is spelled. -/
def IsTokensOf (tokens : List Token) (text : String) : Prop :=
  (∃ name statements, Phrase.Segment tokens name statements) ∧ SpelledWhole tokens text.toList

/-- A text that is read has tokens, and with any padding around them it is read as the same
definition. -/
theorem read_padded {text : String} {definition : Definition} (h : read text = .ok definition) :
    (∃ tokens, IsTokensOf tokens text) ∧
      ∀ tokens (padded : String), IsTokensOf tokens text →
        Padded tokens text.toList padded.toList → read padded = .ok definition := by
  obtain ⟨rest, hread⟩ := read_eq_ok_iff_wholeText.1 h
  constructor
  · obtain ⟨_, name, statements, hsegment, _⟩ := wholeText_eq_accept_iff.1 hread
    obtain ⟨tokens, hphrase, hspelled⟩ := segment_iff_spelledWhole.1 hsegment
    exact ⟨tokens, ⟨name, statements, hphrase⟩, hspelled⟩
  · rintro tokens padded ⟨⟨name, statements, hphrase⟩, hspelled⟩ hpadded
    -- Whatever text the tokens are spelled in, it denotes what the statements denote.
    have hdenotes : ∀ {chars : List Char}, SpelledWhole tokens chars →
        wholeText chars = .accept (denote name statements) [] := by
      intro chars hchars
      exact wholeText_eq_accept_iff.2
        ⟨rfl, name, statements, segment_iff_spelledWhole.2 ⟨tokens, hphrase, hchars⟩, rfl⟩
    obtain ⟨rfl, -⟩ := Outcome.accept.inj (hread.symm.trans (hdenotes hspelled))
    exact read_eq_ok_iff_wholeText.2 ⟨[], hdenotes hpadded.spelledWhole_right⟩

/-- The tokens of a segment with one condition. -/
def tightTokens : List Token :=
  [.keyword "segment", .quoted ['S'] ['S'] (.plain (by decide) (by decide) .nil), .mark "\x7b",
   .keyword "where", .identifier 'a' [] rfl (List.forall_mem_nil _), .mark "=",
   .bareWord ['5'] (by decide) (List.forall_mem_singleton.2 rfl), .mark "\x7d"]

/-- A text with hardly any layout, and one with a comment at its start and after every token. -/
theorem read_padded_tight :
    let text := "segment\"S\"\x7bwhere a=5\x7d"
    let padded := "#\nsegment#\n\"S\"#\n\x7b#\nwhere#\n a#\n=#\n5#\n\x7d#\n"
    let definition : Definition := { name := "S", conditions := [.on "a" .equals "5" ""] }
    read text = .ok definition ∧ IsTokensOf tightTokens text ∧
      Padded tightTokens text.toList padded.toList ∧ read padded = .ok definition := by
  intro text padded definition
  have hread : read text = .ok definition := by decide +kernel
  have hphrase : Phrase.Segment tightTokens _ _ :=
    .intro (.intro _) (.cons (.condition (@Phrase.Where.intro _ _ _
      ⟨String.ofList ['a'], .equals, some (String.ofList ['5']), none⟩ (.inr (.intro rfl _))
      (.symbol _ (by decide)) (.value rfl rfl (.inr (.intro _ _))))) .nil)
  have hpadding : Padding ['#', '\n'] := @Padding.comment [] ['\n'] [] nofun (.inl rfl) .nil
  have hchars : Padded tightTokens _ _ :=
    .tight (stopsAt_cons rfl _) hpadding <|
    .tight (fun _ _ _ => rfl) hpadding <|
    .tight (fun _ _ _ => rfl) hpadding <|
    .tight (stopsAt_cons rfl _) hpadding <|
    @Padded.token _ _ [' '] _ _ _ (.blank rfl (.none _)) (stopsAt_cons rfl _) hpadding <|
    .tight (fun _ _ _ => rfl) hpadding <|
    .tight (stopsAt_cons rfl _) hpadding <|
    .tight (fun _ _ _ => rfl) hpadding <|
    .ending (.none _) hpadding
  have hpadded : Padded tightTokens text.toList padded.toList := by
    convert hchars using 1 <;> decide +kernel
  have htokens : IsTokensOf tightTokens text := ⟨⟨_, _, hphrase⟩, hpadded.spelledWhole_left⟩
  exact ⟨hread, htokens, hpadded, (read_padded hread).2 tightTokens padded htokens hpadded⟩

end Segmentation.Language
