import VisualNovel.Proofs.Recognizing.Passages

/-!
This module contains which string literals are tokens of a text. A literal that is in the escape language up to its
closing quote is one, and the tokens go on behind this quote. No text with another literal has any tokens.
-/

namespace VisualNovel
namespace Expr

section Literal

variable {before cs : List Char} {kinds : List TokenKind} {quote : Char} (hquote : quote = '"' ∨ quote = '\'')

include hquote

theorem tokenize_of_readString_eq_error {fault : Fault} (h : readString quote cs = .error fault) (newline : Bool)
    : tokenize newline (quote :: cs) = .error fault := by
  rw [tokenize_of_not_blank (not_blank_of_quote hquote), readToken_quote hquote, h]
  rfl

/--
Wherever a token starts with a quote, the literal is accepted exactly if it is in the escape language up to the first
quote that is not escaped. Its token is then the decoded text, and the tokens go on behind this quote. Otherwise there are
no tokens, and the fault tells where the literal leaves the language. Codes have four digits, but for those with a sign.
-/
theorem tokenize_literal (hstart : Passage before kinds (quote :: cs)) (newline : Bool)
    : ∃ after ts, ts.map Token.kind = kinds ∧
        (∀ body text rest, splitAtQuote? quote cs = some (body, rest) → Unescapes IsSignedCode quote body text →
          tokenize newline (before ++ quote :: cs)
              =
            (tokenize false rest).map
              (ts ++ { kind := .string (String.ofList text), newlineBefore := after } :: ·)) ∧
        ((∀ body text rest, splitAtQuote? quote cs = some (body, rest) → ¬Unescapes IsSignedCode quote body text) →
          ∃ body text stuck fault, cs = body ++ stuck ∧ Unescapes IsSignedCode quote body text ∧ Stuck stuck fault ∧
            tokenize newline (before ++ quote :: cs) = .error fault) ∧
        ∀ body text,
          Unescapes IsCode quote body text ↔ Unescapes IsSignedCode quote body text ∧ hasSignedCode body = false := by
  obtain ⟨after, ts, hts, heq⟩ := hstart.tokenize newline
  refine ⟨after, ts, hts, fun body text rest hsplit hbody => ?_, fun hnone => ?_, fun _ _ => unescapes_isCode_iff⟩
  . have hliteral := (lexes_string hquote hbody rest).tokenize after
    have hcs : quote :: cs = quote :: (body ++ [quote]) ++ rest := by
      rw [eq_of_splitAtQuote? hsplit, List.cons_append, List.append_assoc, List.singleton_append]
    rw [heq, hcs, hliteral]
    cases tokenize false rest <;> rfl
  . cases hread : readString quote cs with
    | ok t =>
      obtain ⟨body, hsplit, hbody⟩ := (readsString_iff hquote).1 ⟨t.shorter, hread⟩
      exact absurd hbody (hnone _ _ _ hsplit)
    | error fault =>
      obtain ⟨body, text, stuck, hcs, hbody, hstuck⟩ := exists_of_readString_eq_error hread
      refine ⟨body, text, stuck, fault, hcs, hbody, hstuck, ?_⟩
      rw [heq, tokenize_of_readString_eq_error hquote hread]
      rfl

end Literal

section Sample

def sampleBody : List Char :=
  ['\\', 'u', '+', '0', '4', '1', '\\', '"']

theorem unescapes_sampleBody : Unescapes IsSignedCode '"' sampleBody ['A', '"'] := by
  have hcode : Denotes IsSignedCode '"' ['\\', 'u', '+', '0', '4', '1'] 'A' :=
    .code ⟨rfl, readCode?_eq_some_iff.1 (by decide)⟩
  have hquote : Denotes IsSignedCode '"' ['\\', '"'] '"' := .itself (by decide)
  exact .cons hcode (.cons hquote .nil)

/--
A code with a sign is read, although it is no four digits.
-/
theorem tokenize_sampleLiteral
    : ∃ ts,
        tokenize false (['('] ++ '"' :: (sampleBody ++ ['"', ')'])) = .ok ts ∧
          ts.map Token.kind = [.punct .leftParen, .string (String.ofList ['A', '"']), .punct .rightParen] ∧
          ∀ text, ¬Unescapes IsCode '"' sampleBody text := by
  have hstart : Passage ['('] [.punct .leftParen] ('"' :: (sampleBody ++ ['"', ')'])) :=
    .token (lexes_leftParen _) (.nil _)
  obtain ⟨after, ts, hts, hliteral, -, hcodes⟩ := tokenize_literal (.inl rfl) hstart false
  have htokens := hliteral sampleBody _ [')'] rfl unescapes_sampleBody
  have hclosing : tokenize false [')'] = .ok [{ kind := .punct .rightParen, newlineBefore := false }] := by
    rw [← List.append_nil [')'], (lexes_rightParen []).tokenize false, tokenize]
    rfl
  rw [hclosing] at htokens
  refine ⟨_, htokens, ?_, fun text h => ?_⟩
  . rw [List.map_append, hts]
    rfl
  . cases ((hcodes _ text).1 h).2

end Sample

end Expr
end VisualNovel
