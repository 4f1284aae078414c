import TileRoute.Text.Blank

/-!
# Lines as they are laid out

A line is a row of tokens with blanks between them, and perhaps before and behind them. Its words
are its tokens, whatever the blanks are, and every line is laid out in this way. Neither the blanks
nor the tokens of a line depend on the case of its letters.
-/

namespace TileRoute.Text

/-- Neither empty nor with a blank in it. -/
structure Token (s : String) : Prop where
  filled : s ≠ ""
  solid : hasBlank s = false

/-- Tokens with the blanks behind each of them, after the blanks at the start of the line. -/
def laid (lead : String) : List (String × String) → String
  | [] => lead
  | (token, gap) :: rest => lead ++ token ++ laid gap rest

/-- What is between the tokens is blank, and keeps them apart. -/
structure Spaced (lead : String) (parts : List (String × String)) : Prop where
  lead : allBlank lead = true
  gaps : ∀ p ∈ parts, allBlank p.2 = true
  apart : ∀ p ∈ parts.dropLast, p.2 ≠ ""

variable {lead token gap : String} {rest parts : List (String × String)}

theorem Spaced.tail (h : Spaced lead ((token, gap) :: rest)) : Spaced gap rest where
  lead := h.gaps _ List.mem_cons_self
  gaps p hp := h.gaps p (List.mem_cons_of_mem _ hp)
  apart p hp := by
    cases rest with
    | nil => cases hp
    | cons q rest => exact h.apart p (List.mem_cons_of_mem _ hp)

theorem Spaced.gap_ne {p : String × String} (h : Spaced lead ((token, gap) :: p :: rest)) :
    gap ≠ "" :=
  h.apart (token, gap) List.mem_cons_self

theorem wordsFrom_blanks {xs : List Char} (h : ∀ c ∈ xs, isBlank c = true) (ys : List Char) :
    wordsFrom [] (xs ++ ys) = wordsFrom [] ys := by
  induction xs with
  | nil => rfl
  | cons c xs ih =>
    rw [List.cons_append, wordsFrom_blank (h c List.mem_cons_self)]
    exact ih fun d hd => h d (List.mem_cons_of_mem _ hd)

theorem wordsFrom_letters {xs : List Char} (h : ∀ c ∈ xs, isBlank c = false)
    (word ys : List Char) : wordsFrom word (xs ++ ys) = wordsFrom (xs.reverse ++ word) ys := by
  induction xs generalizing word with
  | nil => rfl
  | cons c xs ih =>
    rw [List.cons_append, wordsFrom_letter (h c List.mem_cons_self),
      ih fun d hd => h d (List.mem_cons_of_mem _ hd), List.reverse_cons, List.append_assoc]
    rfl

/-- A word ends at a blank, and at the end of the line. -/
theorem wordsFrom_break {word ys : List Char} (hw : word ≠ [])
    (h : ∀ c ∈ ys.head?, isBlank c = true) :
    wordsFrom word ys = word.reverse :: wordsFrom [] ys := by
  have hne : word.isEmpty = false := List.isEmpty_eq_false_iff.mpr hw
  cases ys with
  | nil => simp only [wordsFrom, hne, Bool.false_eq_true, if_false, List.isEmpty_nil, if_true]
  | cons c ys =>
    have hc : isBlank c = true := h c rfl
    rw [wordsFrom_blank hc]
    simp only [wordsFrom, hc, if_true, hne, Bool.false_eq_true, if_false]

theorem forall_blank {s : String} (h : allBlank s = true) : ∀ c ∈ s.toList, isBlank c = true :=
  List.all_eq_true.mp h

theorem forall_letter {s : String} (h : hasBlank s = false) : ∀ c ∈ s.toList, isBlank c = false :=
  fun c hc => Bool.eq_false_iff.mpr (List.any_eq_false.mp h c hc)

/-- What comes behind a token starts with a blank, if there is anything. -/
theorem Spaced.break (h : Spaced lead ((token, gap) :: rest)) :
    ∀ c ∈ (laid gap rest).toList.head?, isBlank c = true := by
  have hgap := forall_blank (h.gaps _ List.mem_cons_self)
  intro c hc
  cases rest with
  | nil => exact hgap c (List.mem_of_mem_head? hc)
  | cons p rest =>
    obtain ⟨next, behind⟩ := p
    cases hg : gap.toList with
    | nil => exact absurd (String.toList_eq_nil_iff.mp hg) h.gap_ne
    | cons b bs =>
      rw [laid, String.append_assoc, String.toList_append, hg] at hc
      obtain rfl : b = c := Option.some.inj hc
      exact hgap b (hg ▸ List.mem_cons_self)

/-- The words of a line are its tokens. -/
theorem words_laid (h : Spaced lead parts) (ht : ∀ p ∈ parts, Token p.1) :
    words (laid lead parts) = parts.map Prod.fst := by
  induction parts generalizing lead with
  | nil =>
    rw [words, laid, ← List.append_nil lead.toList, wordsFrom_blanks (forall_blank h.lead)]
    rfl
  | cons p rest ih =>
    obtain ⟨token, gap⟩ := p
    have htoken : Token token := ht (token, gap) List.mem_cons_self
    have hletters := forall_letter htoken.solid
    have hword : token.toList.reverse ≠ [] := fun hn =>
      htoken.filled (String.toList_eq_nil_iff.mp (List.reverse_eq_nil_iff.mp hn))
    have hrest := ih h.tail fun p hp => ht p (List.mem_cons_of_mem _ hp)
    have hline : (laid lead ((token, gap) :: rest)).toList =
        lead.toList ++ (token.toList ++ (laid gap rest).toList) := by
      rw [laid, String.append_assoc, String.toList_append, String.toList_append]
    rw [words, hline, wordsFrom_blanks (forall_blank h.lead), wordsFrom_letters hletters,
      List.append_nil, wordsFrom_break hword h.break, List.reverse_reverse, List.map_cons,
      String.ofList_toList, List.map_cons, ← hrest]
    rfl

theorem ofList_cons (c : Char) (cs : List Char) :
    String.ofList (c :: cs) = String.ofList [c] ++ String.ofList cs :=
  @String.ofList_append [c] cs

theorem allBlank_ofList_cons {c : Char} (hc : isBlank c = true) (h : allBlank lead = true) :
    allBlank (String.ofList [c] ++ lead) = true := by
  unfold allBlank at h ⊢
  rw [String.toList_append, String.toList_ofList, List.all_append, h]
  simp only [List.all_cons, hc, List.all_nil, Bool.and_true]

theorem token_ofList_cons {c : Char} (hc : isBlank c = false) (h : hasBlank token = false) :
    Token (String.ofList [c] ++ token) where
  filled hn := by
    have hl := congrArg String.toList hn
    rw [String.toList_append, String.toList_ofList] at hl
    cases hl
  solid := by
    unfold hasBlank at h ⊢
    rw [String.toList_append, String.toList_ofList, List.any_append, h]
    simp only [List.any_cons, hc, List.any_nil, Bool.or_false]

theorem Spaced.cons (h : Spaced lead parts) (hne : parts = [] ∨ lead ≠ "") (token : String) :
    Spaced "" ((token, lead) :: parts) where
  lead := rfl
  gaps := List.forall_mem_cons.mpr ⟨h.lead, h.gaps⟩
  apart p hp := by
    cases parts with
    | nil => cases hp
    | cons q rest =>
      rcases List.mem_cons.mp hp with rfl | hp
      · exact hne.resolve_left nofun
      · exact h.apart p hp

theorem Spaced.instead (h : Spaced lead ((token, gap) :: rest)) (other : String) :
    Spaced lead ((other, gap) :: rest) where
  lead := h.lead
  gaps := List.forall_mem_cons.mpr (List.forall_mem_cons.mp h.gaps)
  apart p hp := by
    cases rest with
    | nil => cases hp
    | cons q rest =>
      rcases List.mem_cons.mp hp with rfl | hp
      · exact h.gap_ne
      · exact h.apart p (List.mem_cons_of_mem _ hp)

theorem laid_append (start lead : String) (parts : List (String × String)) :
    laid (start ++ lead) parts = start ++ laid lead parts := by
  cases parts with
  | nil => rfl
  | cons p rest =>
    obtain ⟨token, gap⟩ := p
    simp only [laid, String.append_assoc]

/-- A line is laid out letter by letter, from its end. -/
theorem exists_laid_ofList (cs : List Char) : ∃ lead parts, Spaced lead parts ∧
    (∀ p ∈ parts, Token p.1) ∧ String.ofList cs = laid lead parts := by
  induction cs with
  | nil => exact ⟨"", [], ⟨rfl, nofun, nofun⟩, nofun, rfl⟩
  | cons c cs ih =>
    obtain ⟨lead, parts, hs, ht, hline⟩ := ih
    rw [ofList_cons, hline]
    cases hc : isBlank c with
    | true =>
      refine ⟨String.ofList [c] ++ lead, parts, ?_, ht, (laid_append _ _ _).symm⟩
      exact { hs with lead := allBlank_ofList_cons hc hs.lead }
    | false =>
      -- The letter begins a token, or goes on with the first one if that stands right behind it.
      by_cases hne : parts = [] ∨ lead ≠ ""
      · refine ⟨"", (String.ofList [c], lead) :: parts, hs.cons hne _, ?_, ?_⟩
        · have hfirst : Token (String.ofList [c] ++ "") := token_ofList_cons hc rfl
          rw [String.append_empty] at hfirst
          exact List.forall_mem_cons.mpr ⟨hfirst, ht⟩
        · rw [laid, String.empty_append]
      · obtain ⟨hparts, hlead⟩ := not_or.mp hne
        obtain ⟨⟨token, gap⟩, rest, rfl⟩ := List.exists_cons_of_ne_nil hparts
        obtain rfl := Decidable.not_not.mp hlead
        obtain ⟨hfirst, hrest⟩ := List.forall_mem_cons.mp ht
        refine ⟨"", (String.ofList [c] ++ token, gap) :: rest, hs.instead _, ?_, ?_⟩
        · exact List.forall_mem_cons.mpr ⟨token_ofList_cons hc hfirst.solid, hrest⟩
        · simp only [laid, String.empty_append, String.append_assoc]

/-- Every line consists of tokens with blanks between them. -/
theorem exists_laid (line : String) : ∃ lead parts, Spaced lead parts ∧
    (∀ p ∈ parts, Token p.1) ∧ line = laid lead parts := by
  have h := exists_laid_ofList line.toList
  rw [String.ofList_toList] at h
  exact h

theorem isBlank_small : ∀ n < 123, 97 ≤ n →
    isBlank (Char.ofNat (n - 32)) = false ∧ isBlank (Char.ofNat n) = false := by decide +kernel

/-- No letter is blank, in neither of its forms. -/
theorem isBlank_capital (c : Char) : isBlank (capital c) = isBlank c := by
  unfold capital
  split
  · rename_i h
    have hl : 97 ≤ c.toNat := h.1
    have hu : c.toNat ≤ 122 := h.2
    obtain ⟨hcapital, hsmall⟩ := isBlank_small c.toNat (by omega) hl
    rw [Char.ofNat_toNat] at hsmall
    rw [hcapital, hsmall]
  · rfl

theorem hasBlank_capitals (s : String) : hasBlank (capitals s) = hasBlank s := by
  unfold hasBlank capitals
  rw [String.toList_ofList, List.any_map]
  exact congrArg s.toList.any (funext isBlank_capital)

theorem capitals_eq_empty_iff {s : String} : capitals s = "" ↔ s = "" := by
  unfold capitals
  rw [← String.toList_eq_nil_iff, String.toList_ofList, List.map_eq_nil_iff,
    String.toList_eq_nil_iff]

/-- Whether a string is a token does not depend on the case of its letters. -/
theorem Token.of_capitals_eq {s t : String} (h : Token s) (he : capitals t = capitals s) :
    Token t where
  filled ht := h.filled (capitals_eq_empty_iff.mp (he.symm.trans (capitals_eq_empty_iff.mpr ht)))
  solid := by
    rw [← hasBlank_capitals, he, hasBlank_capitals]
    exact h.solid

end TileRoute.Text
