import Segmentation.Cache.Key
import Mathlib.Algebra.Group.Nat.Defs
import Mathlib.Logic.Function.Defs
import Mathlib.Tactic.SplitIfs

/-!
# Unambiguous key bytes

Every part of a key shows where it ends, so its bytes can be split off whatever
follows them.  The encoders are taken in the order in which they are built up:
numbers, texts and lists, then the parts of a definition, and at last the key.
A key can be read off the beginning of any bytes that start with its encoding; the
main statement is that keys have the same bytes only if they are equal, and that no
encoding begins a longer one.
-/

namespace Segmentation.CacheKey

/-- An encoding that can be split off the front of any longer list of bytes. -/
def PrefixFree {α : Type} (encoding : α → List UInt8) : Prop :=
  ∀ left right rest others, encoding left ++ rest = encoding right ++ others →
    left = right ∧ rest = others

namespace PrefixFree

variable {α β : Type} {first : α → List UInt8} {second : β → List UInt8}

theorem injective (h : PrefixFree first) : Function.Injective first := by
  intro left right heq
  refine (h left right [] [] ?_).1
  rw [heq]

theorem eq_of_isPrefix (h : PrefixFree first) {left right : α}
    (hinitial : first left <+: first right) : left = right := by
  obtain ⟨rest, hrest⟩ := hinitial
  refine (h left right rest [] ?_).1
  rw [hrest, List.append_nil]

theorem append (hfirst : PrefixFree first) (hsecond : PrefixFree second) :
    PrefixFree fun pair : α × β => first pair.1 ++ second pair.2 := by
  intro left right rest others h
  rw [List.append_assoc, List.append_assoc] at h
  obtain ⟨hleft, htail⟩ := hfirst _ _ _ _ h
  obtain ⟨hright, hrest⟩ := hsecond _ _ _ _ htail
  exact ⟨Prod.ext hleft hright, hrest⟩

/-- A value may be encoded by a view of it that forgets nothing. -/
theorem comap (h : PrefixFree first) (view : β → α) (hview : Function.Injective view) :
    PrefixFree fun value => first (view value) := by
  intro left right rest others heq
  obtain ⟨hsame, hrest⟩ := h _ _ _ _ heq
  exact ⟨hview hsame, hrest⟩

theorem of_length (width : Nat) (hlength : ∀ value, (first value).length = width)
    (hinjective : Function.Injective first) : PrefixFree first := by
  intro left right rest others h
  have hsame : (first left).length = (first right).length := by
    rw [hlength, hlength]
  obtain ⟨hbytes, hrest⟩ := List.append_inj h hsame
  exact ⟨hinjective hbytes, hrest⟩

end PrefixFree

/-! ## Numbers -/

theorem littleEndian_append_inj (width : Nat) {m n : Nat} (hm : m < 256 ^ width)
    (hn : n < 256 ^ width) {rest others : List UInt8}
    (h : littleEndian width m ++ rest = littleEndian width n ++ others) :
    m = n ∧ rest = others := by
  induction width generalizing m n with
  | zero => exact ⟨by omega, h⟩
  | succ width ih =>
      rw [littleEndian, littleEndian, List.cons_append, List.cons_append, List.cons.injEq] at h
      obtain ⟨hbyte, htail⟩ := h
      have hmod : m % 256 = n % 256 := by
        simpa using congrArg UInt8.toNat hbyte
      obtain ⟨hdiv, hrest⟩ := ih (by omega) (by omega) htail
      exact ⟨by omega, hrest⟩

theorem sevenBitGroups_of_lt {n : Nat} (h : n < 128) : sevenBitGroups n = [UInt8.ofNat n] := by
  rw [sevenBitGroups, if_pos h]

theorem sevenBitGroups_of_le {n : Nat} (h : 128 ≤ n) :
    sevenBitGroups n = UInt8.ofNat (128 + n % 128) :: sevenBitGroups (n / 128) := by
  rw [sevenBitGroups, if_neg (Nat.not_lt.2 h)]

theorem ofNat_eq_ofNat_iff {m n : Nat} (hm : m < 256) (hn : n < 256) :
    UInt8.ofNat m = UInt8.ofNat n ↔ m = n := by
  rw [← UInt8.toNat_inj, UInt8.toNat_ofNat', UInt8.toNat_ofNat', Nat.mod_eq_of_lt hm,
    Nat.mod_eq_of_lt hn]

/-- Only the last group is below 128, so the first bytes tell whether one follows. -/
theorem sevenBitGroups_prefixFree : PrefixFree sevenBitGroups := by
  intro m
  induction m using Nat.strongRecOn with
  | ind m ih =>
      intro n rest others h
      rcases Nat.lt_or_ge m 128 with hm | hm <;> rcases Nat.lt_or_ge n 128 with hn | hn
      · rw [sevenBitGroups_of_lt hm, sevenBitGroups_of_lt hn] at h
        obtain ⟨hbyte, hrest⟩ := List.cons.inj h
        exact ⟨(ofNat_eq_ofNat_iff (by omega) (by omega)).1 hbyte, hrest⟩
      · rw [sevenBitGroups_of_lt hm, sevenBitGroups_of_le hn] at h
        have := (ofNat_eq_ofNat_iff (by omega) (by omega)).1 (List.cons.inj h).1
        omega
      · rw [sevenBitGroups_of_le hm, sevenBitGroups_of_lt hn] at h
        have := (ofNat_eq_ofNat_iff (by omega) (by omega)).1 (List.cons.inj h).1
        omega
      · rw [sevenBitGroups_of_le hm, sevenBitGroups_of_le hn] at h
        obtain ⟨hbyte, htail⟩ := List.cons.inj h
        have hmod := (ofNat_eq_ofNat_iff (by omega) (by omega)).1 hbyte
        obtain ⟨hdiv, hrest⟩ := ih (m / 128) (by omega) _ _ _ htail
        exact ⟨by omega, hrest⟩

/-- The first byte of a number: itself if it is small, and otherwise the mark of its width. -/
def lead (n : Nat) : Nat :=
  if n < 251 then n else if n < UInt16.size then 251 else if n < UInt32.size then 252
  else if n < UInt64.size then 253 else 254

/-- What follows the first byte of a number. -/
def body (n : Nat) : List UInt8 :=
  if n < 251 then [] else if n < UInt16.size then littleEndian 2 n
  else if n < UInt32.size then littleEndian 4 n else if n < UInt64.size then littleEndian 8 n
  else sevenBitGroups n

theorem number_eq (n : Nat) : number n = UInt8.ofNat (lead n) :: body n := by
  unfold number lead body
  split_ifs <;> rfl

theorem number_prefixFree : PrefixFree number := by
  intro m n rest others h
  rw [number_eq, number_eq, List.cons_append, List.cons_append, List.cons.injEq,
    ofNat_eq_ofNat_iff (by unfold lead; split_ifs <;> omega)
      (by unfold lead; split_ifs <;> omega)] at h
  obtain ⟨hlead, hbody⟩ := h
  unfold lead at hlead
  unfold body at hbody
  split_ifs at hlead hbody <;> try omega
  · exact ⟨hlead, hbody⟩
  · exact littleEndian_append_inj 2 (by omega) (by omega) hbody
  · exact littleEndian_append_inj 4 (by omega) (by omega) hbody
  · exact littleEndian_append_inj 8 (by omega) (by omega) hbody
  · exact sevenBitGroups_prefixFree _ _ _ _ hbody

/-! ## Texts, lists and options -/

theorem text_prefixFree : PrefixFree text := by
  intro left right rest others h
  rw [text, text, List.append_assoc, List.append_assoc] at h
  obtain ⟨hsize, hbytes⟩ := number_prefixFree _ _ _ _ h
  obtain ⟨hdata, hrest⟩ := List.append_inj hbytes (by simpa using hsize)
  refine ⟨String.toByteArray_inj.1 (ByteArray.ext (Array.ext' hdata)), hrest⟩

variable {α : Type} {item : α → List UInt8}

/-- Lists of one length, without the length in front. -/
theorem flatMap_append_inj {lefts rights : List α} {rest others : List UInt8}
    (hitem : ∀ left ∈ lefts, ∀ right rest others, item left ++ rest = item right ++ others →
      left = right ∧ rest = others)
    (hlength : lefts.length = rights.length)
    (h : lefts.flatMap item ++ rest = rights.flatMap item ++ others) :
    lefts = rights ∧ rest = others := by
  induction lefts generalizing rights with
  | nil =>
      obtain rfl := List.eq_nil_of_length_eq_zero hlength.symm
      exact ⟨rfl, h⟩
  | cons left lefts ih =>
      obtain _ | ⟨right, rights⟩ := rights
      · contradiction
      · rw [List.flatMap_cons, List.flatMap_cons, List.append_assoc, List.append_assoc] at h
        obtain ⟨rfl, htail⟩ := hitem left List.mem_cons_self _ _ _ h
        obtain ⟨rfl, hrest⟩ := ih (fun other hother => hitem other (List.mem_cons_of_mem _ hother))
          (Nat.succ.inj hlength) htail
        exact ⟨rfl, hrest⟩

theorem list_prefixFree (hitem : PrefixFree item) : PrefixFree (list item) := by
  intro lefts rights rest others h
  rw [list, list, List.append_assoc, List.append_assoc] at h
  obtain ⟨hlength, hitems⟩ := number_prefixFree _ _ _ _ h
  exact flatMap_append_inj (fun left _ => hitem left) hlength hitems

theorem option_prefixFree (hitem : PrefixFree item) : PrefixFree (option item) := by
  intro left right rest others h
  cases left <;> cases right <;> simp [option] at h ⊢
  · exact h
  · exact hitem _ _ _ _ h

/-! ## Parts of a key -/

theorem attributeType_prefixFree : PrefixFree attributeType := by
  apply PrefixFree.of_length 1
  · intro type
    cases type <;> rfl
  · intro left right h
    cases left <;> cases right <;> first | rfl | contradiction

theorem connectiveBytes_prefixFree : PrefixFree connectiveBytes := by
  apply PrefixFree.of_length 1
  · intro connective
    cases connective <;> rfl
  · intro left right h
    cases left <;> cases right <;> first | rfl | contradiction

theorem operatorBytes_prefixFree : PrefixFree operatorBytes := by
  apply PrefixFree.of_length 1
  · intro operator
    cases operator <;> rfl
  · intro left right h
    cases left <;> cases right <;> first | rfl | contradiction

theorem modeBytes_prefixFree : PrefixFree modeBytes := by
  apply PrefixFree.of_length 1
  · intro mode
    cases mode <;> rfl
  · intro left right h
    cases left <;> cases right <;> first | rfl | contradiction

theorem dialectBytes_prefixFree : PrefixFree dialectBytes := by
  apply PrefixFree.of_length 1
  · intro dialect
    cases dialect <;> rfl
  · intro left right h
    cases left <;> cases right <;> first | rfl | contradiction

theorem attributeBytes_prefixFree : PrefixFree attributeBytes := by
  refine (text_prefixFree.append attributeType_prefixFree).comap
    (fun declared : Attribute => (declared.name, declared.type)) ?_
  rintro ⟨⟩ ⟨⟩ h
  simpa using h

theorem datasetBytes_prefixFree : PrefixFree datasetBytes := by
  refine (((text_prefixFree.append (option_prefixFree text_prefixFree)).append
    text_prefixFree).append (list_prefixFree attributeBytes_prefixFree)).comap
    (fun dataset : Dataset =>
      (((dataset.name, dataset.schema), dataset.keyColumn), dataset.attributes)) ?_
  rintro ⟨⟩ ⟨⟩ h
  simpa [and_assoc] using h

theorem conditionBytes_prefixFree : PrefixFree conditionBytes := by
  refine (((text_prefixFree.append operatorBytes_prefixFree).append
    (option_prefixFree text_prefixFree)).append (option_prefixFree text_prefixFree)).comap
    (fun condition : Condition =>
      (((condition.field, condition.operator), condition.value), condition.upper)) ?_
  rintro ⟨⟩ ⟨⟩ h
  simpa [and_assoc] using h

theorem segmentBytes_prefixFree : PrefixFree segmentBytes := by
  refine ((text_prefixFree.append text_prefixFree).append number_prefixFree).comap
    (fun segment : SegmentRef => ((segment.id, segment.name), segment.count.toNat)) ?_
  rintro ⟨⟩ ⟨⟩ h
  simpa [and_assoc, UInt64.toNat_inj] using h

theorem membershipTableBytes_prefixFree : PrefixFree membershipTableBytes := by
  refine ((text_prefixFree.append text_prefixFree).append text_prefixFree).comap
    (fun table : MembershipTable => ((table.table, table.segmentColumn), table.keyColumn)) ?_
  rintro ⟨⟩ ⟨⟩ h
  simpa [and_assoc] using h

theorem capBytes_prefixFree : PrefixFree capBytes := by
  intro left right rest others h
  cases left <;> cases right <;> simp [capBytes] at h ⊢
  · exact h
  · obtain ⟨hlimit, hrest⟩ := number_prefixFree _ _ _ _ h
    exact ⟨UInt32.toNat_inj.1 hlimit, hrest⟩

/-! ## Nodes and keys -/

theorem nodesBytes_eq_flatMap (nodes : List Node) :
    nodesBytes nodes = nodes.flatMap nodeBytes := by
  induction nodes with
  | nil => rfl
  | cons node rest ih => rw [nodesBytes, ih, List.flatMap_cons]

/-- The name of its kind tells what a node is; its children are split off one by one. -/
theorem nodeBytes_prefixFree : ∀ left right rest others,
    nodeBytes left ++ rest = nodeBytes right ++ others → left = right ∧ rest = others
  | .condition c, right, rest, others, h => by
      cases right <;> simp only [nodeBytes, List.append_assoc] at h <;>
        obtain ⟨hkind, h⟩ := text_prefixFree _ _ _ _ h <;> simp at hkind
      obtain ⟨rfl, hrest⟩ := conditionBytes_prefixFree _ _ _ _ h
      exact ⟨rfl, hrest⟩
  | .group connective children, right, rest, others, h => by
      cases right <;> simp only [nodeBytes, List.append_assoc] at h <;>
        obtain ⟨hkind, h⟩ := text_prefixFree _ _ _ _ h <;> simp at hkind
      obtain ⟨rfl, hgroup⟩ := connectiveBytes_prefixFree _ _ _ _ h
      obtain ⟨hlength, hchildren⟩ := number_prefixFree _ _ _ _ hgroup
      rw [nodesBytes_eq_flatMap, nodesBytes_eq_flatMap] at hchildren
      obtain ⟨rfl, hrest⟩ := flatMap_append_inj
        (fun child _ => nodeBytes_prefixFree child) hlength hchildren
      exact ⟨rfl, hrest⟩
  | .membership segment mode, right, rest, others, h => by
      cases right <;> simp only [nodeBytes, List.append_assoc] at h <;>
        obtain ⟨hkind, h⟩ := text_prefixFree _ _ _ _ h <;> simp at hkind
      obtain ⟨rfl, hmode⟩ := segmentBytes_prefixFree _ _ _ _ h
      obtain ⟨rfl, hrest⟩ := modeBytes_prefixFree _ _ _ _ hmode
      exact ⟨rfl, hrest⟩

theorem groupBytes_prefixFree : PrefixFree groupBytes := by
  refine (connectiveBytes_prefixFree.append (list_prefixFree nodeBytes_prefixFree)).comap
    (fun group : Group => (group.connective, group.children)) ?_
  rintro ⟨⟩ ⟨⟩ h
  simpa using h

theorem encode_prefixFree : PrefixFree encode := by
  refine ((((((((datasetBytes_prefixFree.append connectiveBytes_prefixFree).append
    (list_prefixFree conditionBytes_prefixFree)).append
    (list_prefixFree groupBytes_prefixFree)).append
    (list_prefixFree segmentBytes_prefixFree)).append
    (list_prefixFree segmentBytes_prefixFree)).append
    membershipTableBytes_prefixFree).append dialectBytes_prefixFree).append
    capBytes_prefixFree).comap
    (fun key : CacheKey =>
      ((((((((key.dataset, key.connective), key.conditions), key.groups), key.inclusions),
        key.exclusions), key.membership), key.dialect), key.cap)) ?_
  rintro ⟨⟩ ⟨⟩ h
  simpa [and_assoc] using h

/-- Keys that differ in some component have different bytes, and the bytes of no key are the
beginning of the longer bytes of another. -/
theorem injective_encode_and_isPrefix :
    Function.Injective encode ∧
      ∀ left right : CacheKey, left.encode <+: right.encode → left.encode = right.encode := by
  constructor
  · exact encode_prefixFree.injective
  · intro left right hinitial
    rw [encode_prefixFree.eq_of_isPrefix hinitial]

end Segmentation.CacheKey
