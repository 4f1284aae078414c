import TileRoute.Proofs.Lexicon.Extension
import TileRoute.Proofs.Text.Words

/-!
# Lines and their tokens

What a script line is read as depends on its tokens, and not on the blanks between them. Each
mnemonic of a lexicon is found, in whatever case its name is written; a line is nobody's business
exactly if it has no token or its first one is no mnemonic's name.
-/

namespace TileRoute

open Text

theorem Mnemonic.Single.token {m : Mnemonic} (h : m.Single) : Token m.name where
  filled hn := by
    have hb := h.1
    rw [hn] at hb
    cases hb
  solid := h.2

namespace Lexicon

variable {α : Type} [Scalar α] {l start : Lexicon}

/-- Lines with the same tokens are read alike. A name, in whatever case, makes the call of its
mnemonic with as many of the tokens behind it as the action takes; a line without tokens is not
read, nor is one whose first token is no name. -/
structure ByTokens (α : Type) [Scalar α] (l : Lexicon) : Prop where
  every : ∀ line, ∃ lead parts, Spaced lead parts ∧ (∀ p ∈ parts, Token p.1) ∧
    line = laid lead parts
  alike : ∀ lead parts lead' parts', Spaced lead parts → Spaced lead' parts' →
    (∀ p ∈ parts, Token p.1) → parts.map Prod.fst = parts'.map Prod.fst →
      (l.read? (laid lead parts) : Option (Call α)) = l.read? (laid lead' parts')
  known : ∀ m ∈ l.mnemonics, ∀ name, capitals name = capitals m.name →
    ∀ lead gap args, Spaced lead ((name, gap) :: args) → (∀ p ∈ args, Token p.1) →
      (l.read? (laid lead ((name, gap) :: args)) : Option (Call α)) =
        some ⟨m.action, ((args.map Prod.fst).take m.action.arity).map Arg.ofText⟩
  unread_iff : ∀ lead parts, Spaced lead parts → (∀ p ∈ parts, Token p.1) →
    ((l.read? (laid lead parts) : Option (Call α)) = none ↔
      ∀ p ∈ parts.head?, ∀ m ∈ l.mnemonics, capitals m.name ≠ capitals p.1)

theorem read?_congr {line other : String} (h : words line = words other) :
    (l.read? line : Option (Call α)) = l.read? other := by
  simp only [read?, h]

theorem Sound.byTokens (h : l.Sound) : ByTokens α l where
  every := exists_laid
  alike lead parts lead' parts' hs hs' ht he := by
    have ht' : ∀ p ∈ parts', Token p.1 := by
      intro p hp
      have hmem : p.1 ∈ parts.map Prod.fst := he ▸ List.mem_map_of_mem hp
      obtain ⟨q, hq, hfst⟩ := List.mem_map.mp hmem
      exact hfst ▸ ht q hq
    exact read?_congr ((words_laid hs ht).trans (he.trans (words_laid hs' ht').symm))
  known m hm name hname lead gap args hs ht := by
    have hfirst : Token name := (h.single m hm).token.of_capitals_eq hname
    have hwords := words_laid hs (List.forall_mem_cons.mpr ⟨hfirst, ht⟩)
    rw [List.map_cons] at hwords
    rw [read?_of_words hwords, h.find?_eq_some_iff.mpr ⟨hm, hname.symm⟩, Option.map_some]
  unread_iff lead parts hs ht := by
    have hwords := words_laid hs ht
    cases parts with
    | nil =>
      rw [read?_of_wordless hwords]
      exact ⟨fun _ => nofun, fun _ => rfl⟩
    | cons p rest =>
      rw [List.map_cons] at hwords
      rw [read?_of_words hwords, Option.map_eq_none_iff, h.find?_eq_none_iff]
      exact ⟨fun hall q hq => Option.some.inj hq ▸ hall, fun hall => hall p rfl⟩

/-- In whatever way a lexicon has been put together, it reads lines by their tokens, and every
mnemonic of it is found. -/
theorem lines_read_by_tokens (h : start = empty ∨ start = standard) (calls : List Mnemonic) :
    ByTokens α (start.enterAll calls) :=
  ((sound_of_start h).enterAll calls).1.byTokens

theorem lines_read_by_tokens_troupe :
    (standard = empty ∨ standard = standard) ∧ ByTokens Float (standard.enterAll troupe) ∧
      ((standard.enterAll troupe).read? "\u3000bOW\t3  4\u20285" : Option (Call Float)) =
        some ⟨.approach, [.number 3, .number 4]⟩ ∧
        ((standard.enterAll troupe).read? "bow_low 3 4" : Option (Call Float)) = none := by
  have h : ByTokens Float (standard.enterAll troupe) := lines_read_by_tokens (.inr rfl) troupe
  have hbow : bow ∈ (standard.enterAll troupe).mnemonics := by decide +kernel
  have hargs : ∀ p ∈ [("3", "  "), ("4", "\u2028"), ("5", "")], Token p.1 := by
    intro p hp
    simp only [List.mem_cons, List.not_mem_nil, or_false] at hp
    rcases hp with rfl | rfl | rfl <;> exact ⟨by decide, by decide⟩
  have hspaced : Spaced "\u3000" (("bOW", "\t") :: [("3", "  "), ("4", "\u2028"), ("5", "")]) :=
    ⟨by decide, by decide, by decide⟩
  have hread := h.known bow hbow "bOW" (by decide) "\u3000" "\t" _ hspaced hargs
  exact ⟨.inr rfl, h, hread.trans (by decide +kernel), by decide +kernel⟩

end Lexicon

end TileRoute
