import LayeredAssets.Proofs.Json.Frames
import LayeredAssets.Proofs.Json.Members
import Mathlib.Data.List.Basic

namespace LayeredAssets.Json

/-- The characters end a string that is being read, and no earlier character does. -/
inductive Literal.Spells : Literal → List Char → Option String → Prop where
  | ends {literal : Literal} {c : Char} {text : Option String} (h : literal.next c = .ends text) :
      Spells literal [c] text
  | more {literal next : Literal} {c : Char} {cs : List Char} {text : Option String}
      (h : literal.next c = .more next) (rest : Spells next cs text) : Spells literal (c :: cs) text

/-- A key as it may stand in an object: a string that may have blanks around it. -/
inductive KeyText : String → String → Prop where
  | intro {before quoted after : List Char} {name : String}
      (blankBefore : ∀ c ∈ before, Reading.isBlank c = true)
      (spells : Literal.start.Spells quoted (some name))
      (blankAfter : ∀ c ∈ after, Reading.isBlank c = true) :
      KeyText (.ofList (before ++ '"' :: (quoted ++ after))) name

/-- Characters that stand for themselves in a string. -/
def Plain (name : String) : Prop := ∀ c ∈ name.toList, c ≠ '"' ∧ c ≠ '\\' ∧ 0x20 ≤ c.toNat

theorem Literal.spells_plain {cs : List Char}
    (plain : ∀ c ∈ cs, c ≠ '"' ∧ c ≠ '\\' ∧ 0x20 ≤ c.toNat) (done : List Char) :
    Literal.Spells ⟨some done, none, .none⟩ (cs ++ ['"'])
      (some (.ofList (done.reverse ++ cs))) := by
  induction cs generalizing done with
  | nil => exact .ends (by simp [next, finish])
  | cons c cs ih =>
    obtain ⟨⟨hquote, hescape, hcontrol⟩, hcs⟩ := List.forall_mem_cons.mp plain
    have hnext : Literal.next ⟨some done, none, .none⟩ c =
        .more ⟨some (c :: done), none, .none⟩ := by
      simp [next, hquote, hescape, Nat.not_lt.mpr hcontrol, push]
    exact .more hnext (by simpa using ih hcs (c :: done))

/-- A name in quotation marks is the text of a key. -/
theorem keyText_quoted (name : String) (plain : Plain name) :
    KeyText ("\"" ++ name ++ "\"") name := by
  have hspells : Literal.start.Spells (name.toList ++ ['"']) (some name) := by
    have h := Literal.spells_plain plain []
    rwa [List.reverse_nil, List.nil_append, String.ofList_toList] at h
  have htext : "\"" ++ name ++ "\"" =
      .ofList ([] ++ '"' :: ((name.toList ++ ['"']) ++ [])) := by
    rw [← String.toList_inj]
    simp
  rw [htext]
  exact .intro (by simp) hspells (by simp)

/-- The text of a member: those of its key and of its value. -/
def memberText (m : String × String) : String := m.1 ++ ":" ++ m.2

def objectText (members : List (String × String)) : String :=
  "\x7b" ++ ",".intercalate (members.map memberText) ++ "\x7d"

/-- Texts of a key and a value, and the member that they make. -/
structure MemberWritten (texts : String × String) (m : String × Json) : Prop where
  key : KeyText texts.1 m.1
  value : Written texts.2 m.2

namespace Reading

section
variable {done : List (Option String × Json)} {frames : List Frame} {name : String}

theorem foldl_blanks {r : Reading} (stays : ∀ c, isBlank c = true → r.step c = r) {cs : List Char}
    (h : ∀ c ∈ cs, isBlank c = true) : cs.foldl step r = r := by
  induction cs with
  | nil => rfl
  | cons c cs ih =>
    obtain ⟨hc, hcs⟩ := List.forall_mem_cons.mp h
    rw [List.foldl_cons, stays c hc]
    exact ih hcs

theorem foldl_keyText {literal : Literal} {cs : List Char} {text : Option String}
    (h : literal.Spells cs text) :
    cs.foldl step (.keyText literal done frames) = .colon text done frames := by
  induction h with
  | ends h => simp [step, h]
  | more h _ ih => simpa [step, h] using ih

theorem foldl_key {text : String} (h : KeyText text name) (opened : Bool) :
    text.toList.foldl step (.key opened done frames) = .colon (some name) done frames := by
  cases h with
  | intro hbefore hspells hafter =>
    have hkey : ∀ c, isBlank c = true →
        (Reading.key opened done frames).step c = .key opened done frames := by
      intro c hc
      simp [step, hc]
    have hcolon : ∀ c, isBlank c = true →
        (Reading.colon (some name) done frames).step c = .colon (some name) done frames := by
      intro c hc
      simp [step, hc]
    rw [String.toList_ofList, List.foldl_append, foldl_blanks hkey hbefore, List.foldl_cons]
    change List.foldl step (.keyText .start done frames) _ = _
    rw [List.foldl_append, foldl_keyText hspells, foldl_blanks hcolon hafter]

/-- A member is read up to the character behind it. -/
theorem foldl_member {texts : String × String} {m : String × Json} (h : MemberWritten texts m)
    (opened : Bool) {c : Char} (hc : c = ',' ∨ c = '\x7d') :
    ((memberText texts).toList.foldl step (.key opened done frames)).step c =
      stepAfter m.2 (.object done (some m.1) :: frames) c := by
  have hcolon : (Reading.colon (some m.1) done frames).step ':' =
      .value (.object done (some m.1) :: frames) := rfl
  have htexts : (memberText texts).toList = texts.1.toList ++ ':' :: texts.2.toList := by
    simp [memberText]
  rw [htexts, List.foldl_append, foldl_key h.key, List.foldl_cons, hcolon, h.value.foldl _ hc]

/-- The members of an object are read one after the other, up to the end of the object. -/
theorem foldl_members {texts : List (String × String)} {members : List (String × Json)}
    (h : List.Forall₂ MemberWritten texts members) (nonempty : texts ≠ []) (opened : Bool) :
    ((",".intercalate (texts.map memberText)).toList.foldl step
        (.key opened done frames)).step '\x7d' =
      .after (.object (done.reverse ++ members.map member)) frames := by
  induction h generalizing opened done with
  | nil => exact absurd rfl nonempty
  | @cons t m texts members hm hrest ih =>
    cases hrest with
    | nil =>
      have hone : (",".intercalate [memberText t]).toList = (memberText t).toList := by simp
      rw [List.map_cons, List.map_nil, hone, foldl_member hm opened (.inr rfl)]
      simp [stepAfter, isBlank, member]
    | @cons t' m' texts members _ _ =>
      -- Behind the comma the rest is read as if its object went on from here.
      have hmore : (",".intercalate ((t :: t' :: texts).map memberText)).toList =
          (memberText t).toList ++ ',' ::
            (",".intercalate ((t' :: texts).map memberText)).toList := by
        simp [String.toList_intercalate]
      have hcomma : stepAfter m.2 (.object done (some m.1) :: frames) ',' =
          .key false (member m :: done) frames := rfl
      rw [hmore, List.foldl_append, List.foldl_cons, foldl_member hm opened (.inl rfl), hcomma,
        ih (List.cons_ne_nil _ _) false]
      simp

end
end Reading

theorem isWhole_keyed {members : List (String × Json)} (h : ∀ m ∈ members, m.2.isWhole = true) :
    (keyed members).isWhole = true := by
  simpa [keyed, isWhole, wholeMembers_eq_all, member] using h

theorem readAs_written {text : String} {j : Json} (h : Written text j) {α : Type}
    (reader : Reader α) : Document.readAs reader text = reader j := by
  simp only [Document.readAs, h.document]
  cases reader j with
  | error complaint => rfl
  | ok a => rfl

/-- Texts of members make the text of their object. -/
theorem written_object {texts : List (String × String)} {members : List (String × Json)}
    (h : List.Forall₂ MemberWritten texts members) :
    Written (objectText texts) (keyed members) where
  document := by
    have hstart : (Reading.value []).step '\x7b' = .key true [] [] := rfl
    have htext : (objectText texts).toList =
        '\x7b' :: ((",".intercalate (texts.map memberText)).toList ++ ['\x7d']) := by
      simp [objectText]
    have hread : (objectText texts).toList.foldl Reading.step (.value []) =
        .after (keyed members) [] := by
      rw [htext, List.foldl_cons, hstart, List.foldl_append, List.foldl_cons, List.foldl_nil]
      cases h with
      | nil => rfl
      | cons hm hrest =>
        exact Reading.foldl_members (.cons hm hrest) (List.cons_ne_nil _ _) true
    rw [Document.ofText, hread]
    rfl
  whole := by
    apply isWhole_keyed
    induction h with
    | nil => simp
    | cons hm _ ih => exact List.forall_mem_cons.mpr ⟨hm.value.whole, ih⟩

end LayeredAssets.Json
