import GoTrace.Proofs.Grammar.Comments
import GoTrace.Proofs.Grammar.Ends
import GoTrace.Proofs.Syntax.Bare

/-!
# Declarations do not depend on their neighbours

The declarations of two files, put behind each other, are read as they are read alone
(`decls_append`). Two things could go wrong at the seam. A declaration could look at what is behind
the implicit semicolon at its end, but the rules are local. Or a declaration could take that
semicolon itself and end in front of the end of the text, where in the longer text another
declaration follows. That does not happen, because the last token that a declaration takes is
written (`Grammar.tight_decl`).
-/

namespace GoTrace

/-- Tokens of whole lines: none is the end of the text, and the last is an implicit semicolon. -/
structure Lines (ts : List Token) : Prop where
  noEof : ∀ t ∈ ts, t.kind ≠ .eof
  ends : ∀ t ∈ ts.getLast?, t.kind = .semicolon true

/-- Behind some of its tokens, tokens of whole lines are tokens of whole lines. -/
theorem Lines.behind {ts us : List Token} (h : Lines (ts ++ us)) : Lines us := by
  refine ⟨fun t ht => h.noEof t (List.mem_append_right ts ht), fun t ht => h.ends t ?_⟩
  rw [List.getLast?_append, Option.mem_def.1 ht]
  rfl

/-- A token that is no error can be taken. -/
theorem exists_takes {st : ParseState} {t : Token} {rest : List Token}
    (htokens : st.tokens = t :: rest) (ht : ∀ message, t.kind ≠ .error message) :
    ∃ st', Takes st t st' ∧ st'.tokens = rest :=
  ⟨⟨rest, st.comments ++ t.comments, t.span.stop⟩, ⟨htokens, rfl, rfl, ht⟩, rfl⟩

/-- A token that is taken in one state is taken in another in which it is next. -/
theorem Takes.again {st st' st₀ : ParseState} {t : Token} {rest : List Token} (h : Takes st t st')
    (htokens : st₀.tokens = t :: rest) : ∃ st₀', Takes st₀ t st₀' ∧ st₀'.tokens = rest :=
  exists_takes htokens h.noError

namespace Parser

variable {α : Type} {ctx : ParseContext} {st st' : ParseState} {t : Token}

/-! ## Taking a token that is there -/

theorem yields_expectKeyword_of_takes {word : Keyword} (h : Takes st t st')
    (hkind : t.kind = .keyword word) : (expectKeyword word).Yields ctx st t.span.start st' := by
  refine (yields_peek (peeks_nextIsKeyword word)).2 ?_
  rw [nextKind?_of_takes h, hkind, beq_self_eq_true, if_pos rfl]
  exact yields_takePlace_of_takes h

theorem yields_expectIdent_of_takes {name : String} (h : Takes st t st')
    (hkind : t.kind = .ident name) : expectIdent.Yields ctx st ⟨t.span.start, name⟩ st' := by
  refine (yields_peek peeks_peekKind?).2 ?_
  rw [nextKind?_of_takes h, hkind]
  exact yields_bind.2 ⟨t.span.start, st', yields_takePlace_of_takes h, yields_pure.2 ⟨rfl, rfl⟩⟩

/-- An implicit semicolon ends a declaration. -/
theorem yields_endOfDecl_of_takes (h : Takes st t st') (hkind : t.kind = .semicolon true) :
    endOfDecl.Yields ctx st () st' := by
  refine (yields_peek peeks_peekKind?).2 ?_
  rw [nextKind?_of_takes h, hkind]
  exact yields_bind.2 ⟨t, st', yields_take_of_takes h, yields_pure.2 ⟨rfl, rfl⟩⟩

/-- If the end of a declaration is not in front of the end of the text, it takes a token, which is
an implicit semicolon. -/
theorem takes_of_endOfDecl {s : Token} {rest : List Token} (h : endOfDecl.Yields ctx st () st')
    (htokens : st.tokens = s :: rest) (hs : s.kind ≠ .eof) :
    Takes st s st' ∧ s.kind = .semicolon true := by
  have h := (yields_peek peeks_peekKind?).1 h
  have hnext : st.nextKind? = some s.kind := by rw [ParseState.nextKind?, htokens]; rfl
  split at h
  · rename_i hkind
    obtain ⟨u, _, hu, h⟩ := yields_bind.1 h
    obtain ⟨-, rfl⟩ := yields_pure.1 h
    have htakes := takes_of_take hu
    obtain ⟨rfl, -⟩ := List.cons.inj (htokens.symm.trans htakes.tokens)
    exact ⟨htakes, Option.some.inj (hnext.symm.trans hkind)⟩
  · exact absurd h not_yields_failHere
  · rename_i hkind
    exact absurd (Option.some.inj (hnext.symm.trans hkind)) hs
  · exact absurd h not_yields_unexpected

/-! ## Items that are there -/

/-- The items that can be read one after the other are collected. -/
theorem loops_of_collected {done : Parser Bool} {item : Parser (α × Bool)} {xs : List α}
    (h : Collected done item ctx xs st st') (made : Array α) :
    ∃ n, Loops (collectStep done item) ctx n made st (made.toList ++ xs) st' := by
  induction h generalizing made with
  | done h =>
    refine ⟨0, .stop (yields_bind.2 ⟨true, _, h, yields_pure.2 ⟨?_, rfl⟩⟩)⟩
    rw [List.append_nil]
  | @last x st st₁ st' hdone h =>
    refine ⟨0, .stop (yields_bind.2 ⟨false, st₁, hdone, yields_bind.2 ⟨(x, true), st', h, ?_⟩⟩)⟩
    exact yields_pure.2 ⟨by rw [Array.toList_push], rfl⟩
  | @next x xs st st₁ st₂ st' hdone h _ ih =>
    obtain ⟨n, hn⟩ := ih (made.push x)
    rw [Array.toList_push, List.append_assoc] at hn
    refine ⟨n + 1, .goOn (yields_bind.2 ⟨false, st₁, hdone, ?_⟩) hn⟩
    exact yields_bind.2 ⟨(x, false), st₂, h, yields_pure.2 ⟨rfl, rfl⟩⟩

/-- If each item takes a token, there is fuel enough to collect all that can be read. -/
theorem yields_collect_of_collected {done : Parser Bool} {item : Parser (α × Bool)} {xs : List α}
    (hdone : done.Local) (hitem : item.Moves) (h : Collected done item ctx xs st st') :
    (collect done item).Yields ctx st xs st' := by
  obtain ⟨n, hloops⟩ := loops_of_collected h #[]
  obtain ⟨ts, hts, hn, -⟩ := hloops.passes fun _ => localIf_collectStep hdone hitem id
  refine yields_bind.2 ⟨st, st, yields_get.2 ⟨rfl, rfl⟩, hloops.yields ?_⟩
  rw [hts.tokens, List.length_append]
  omega

end Parser

namespace Grammar

open GoTrace.Parser

variable {rules : Nested} {ctx : ParseContext} {st st' st₀ : ParseState} {ds es rest : List Token}
  {e : Token}

/-! ## One declaration -/

/-- Among tokens of whole lines, the token behind a declaration is an implicit semicolon. -/
theorem exists_semicolon {ts us : List Token} {t : Token} (hlines : Lines ds) (he : e.kind = .eof)
    (ht : t.kind.isWritten) (h : ds ++ [e] = (ts ++ [t]) ++ us) :
    ∃ s ds', ds = (ts ++ [t]) ++ s :: ds' ∧ us = s :: ds' ++ [e] := by
  have hnot : ds ++ [e] ≠ ts ++ [t] := by
    intro heq
    obtain ⟨-, hlast⟩ := List.append_inj' heq rfl
    obtain rfl : e = t := (List.cons.inj hlast).1
    rw [he] at ht
    cases ht
  rcases List.append_eq_append_iff.1 h with ⟨vs, hts, hus⟩ | ⟨vs, hds, hus⟩
  · -- the declaration would take the last token of its line, which is not written
    rcases vs with _ | ⟨v, vs⟩
    · rw [List.append_nil] at hts
      have hlast := hlines.ends t (by rw [← hts, List.getLast?_concat]; rfl)
      rw [hlast] at ht
      cases ht
    · obtain ⟨rfl, hnil⟩ := List.cons.inj hus
      obtain ⟨rfl, -⟩ := List.append_eq_nil_iff.1 hnil.symm
      exact absurd hts.symm hnot
  · rcases vs with _ | ⟨s, vs⟩
    · rw [List.append_nil] at hds
      have hlast := hlines.ends t (by rw [hds, List.getLast?_concat]; rfl)
      rw [hlast] at ht
      cases ht
    · exact ⟨s, vs, hds, hus⟩

/-- A declaration among tokens of whole lines ends with one of these lines, and it is read in the
same way where other tokens follow these lines. -/
theorem declLine_among_lines (moving : rules.Moving) (tight : rules.Tight) {x : Decl}
    (h : (declLine rules).Yields ctx st x st') (hlines : Lines ds) (he : e.kind = .eof)
    (htokens : st.tokens = ds ++ [e]) : ∃ front ds', front ≠ [] ∧ ds = front ++ ds' ∧
      st'.tokens = ds' ++ [e] ∧ ∀ st₀, st₀.tokens = ds ++ rest →
        ∃ st₁, (declLine rules).Yields ctx st₀ x st₁ ∧ st₁.tokens = ds' ++ rest := by
  obtain ⟨_, st₁, hdecl, h⟩ := yields_bind.1 h
  obtain ⟨_, st₂, hend, h⟩ := yields_bind.1 h
  obtain ⟨rfl, rfl⟩ := yields_pure.1 h
  obtain ⟨us, t, hus, ht⟩ := tight_decl moving tight hdecl
  obtain ⟨s, ds', rfl, hrest⟩ := exists_semicolon hlines he ht (htokens.symm.trans hus.tokens)
  obtain ⟨hs, hsemicolon⟩ := takes_of_endOfDecl hend hrest
    (hlines.noEof s (List.mem_append_right _ List.mem_cons_self))
  refine ⟨(us ++ [t]) ++ [s], ds', by simp, by simp, ?_, fun st₀ htokens₀ => ?_⟩
  · exact (List.cons.inj (hs.tokens.symm.trans hrest)).2
  · -- the declaration sees no more than the semicolon behind it
    rw [List.append_assoc] at htokens₀
    obtain ⟨st₃, hus₀, hrest₀⟩ := hus.again htokens₀
    obtain ⟨vs, hvs, -, hagain⟩ := moves_decl moving _ hdecl
    obtain rfl : vs = us ++ [t] :=
      List.append_cancel_right (hvs.tokens.symm.trans hus.tokens)
    have hagree : Agree st₁.tokens st₃.tokens := by
      rw [hrest, hrest₀]
      exact .stop (by rw [hsemicolon]; rfl)
    obtain ⟨st₂, hs₀, hrest₂⟩ := hs.again hrest₀
    refine ⟨st₂, yields_bind.2 ⟨_, st₃, hagain hus₀ hagree, ?_⟩, hrest₂⟩
    exact yields_bind.2
      ⟨(), st₂, yields_endOfDecl_of_takes hs₀ hsemicolon, yields_pure.2 ⟨rfl, rfl⟩⟩

/-! ## The declarations of a file -/

/-- One of the declarations of a file, with more to follow. -/
def declItem (rules : Nested) : Parser (Decl × Bool) := do return (← declLine rules, false)

/-- In front of tokens of whole lines the file has not ended. -/
theorem nextKind?_all_eof {t : Token} (htokens : st.tokens = t :: rest) (ht : t.kind ≠ .eof) :
    (st.nextKind?.all (· == .eof)) = false := by
  rw [ParseState.nextKind?, htokens]
  simpa using ht

/-- The declarations of whole lines are read in the same way where other tokens follow these lines,
and whatever is read behind them is read then. -/
theorem collected_append (moving : rules.Moving) (tight : rules.Tight) {xs : List Decl}
    (h : Collected atEnd (declItem rules) ctx xs st st') (hlines : Lines ds) (he : e.kind = .eof)
    (htokens : st.tokens = ds ++ [e]) (htokens₀ : st₀.tokens = ds ++ rest) :
    ∃ st₁, st₁.tokens = rest ∧ ∀ ys st₂, Collected atEnd (declItem rules) ctx ys st₁ st₂ →
      Collected atEnd (declItem rules) ctx (xs ++ ys) st₀ st₂ := by
  induction h generalizing ds st₀ with
  | done h =>
    obtain ⟨hend, -⟩ := (yields_of_peeks peeks_atEnd).1 h
    rcases ds with _ | ⟨d, ds⟩
    · exact ⟨st₀, htokens₀, fun ys st₂ hys => hys⟩
    · rw [nextKind?_all_eof htokens (hlines.noEof d List.mem_cons_self)] at hend
      cases hend
  | last _ h =>
    obtain ⟨_, _, -, h⟩ := yields_bind.1 h
    cases (yields_pure.1 h).1
  | @next x xs _ _ st₂ _ hdone h _ ih =>
    obtain ⟨-, rfl⟩ := (yields_of_peeks peeks_atEnd).1 hdone
    obtain ⟨_, _, hline, h⟩ := yields_bind.1 h
    obtain ⟨heq, rfl⟩ := yields_pure.1 h
    obtain rfl := congrArg Prod.fst heq
    obtain ⟨front, ds', hfront, rfl, htokens', hagain⟩ :=
      declLine_among_lines moving tight hline hlines he htokens
    obtain ⟨st₃, hline₀, htokens₃⟩ := hagain st₀ htokens₀
    obtain ⟨st₁, htokens₁, hrest⟩ := ih hlines.behind htokens' htokens₃
    have hdone₀ : atEnd.Yields ctx st₀ false st₀ := by
      obtain ⟨t, front, rfl⟩ := List.exists_cons_of_ne_nil hfront
      have htokens₀ : st₀.tokens = t :: (front ++ ds' ++ rest) := htokens₀
      exact (yields_of_peeks peeks_atEnd).2
        ⟨nextKind?_all_eof htokens₀ (hlines.noEof t (by simp)), rfl⟩
    refine ⟨st₁, htokens₁, fun ys st₂ hys => .next hdone₀ ?_ (hrest ys st₂ hys)⟩
    exact yields_bind.2 ⟨_, _, hline₀, yields_pure.2 ⟨rfl, rfl⟩⟩

/-- The declarations of two texts of whole lines are read behind each other. -/
theorem yields_decls_append (moving : rules.Moving) (tight : rules.Tight) {xs ys : List Decl}
    {st₁ st₁' : ParseState} {e' last : Token}
    (hxs : (many atEnd (declLine rules)).Yields ctx st xs st')
    (hys : (many atEnd (declLine rules)).Yields ctx st₁ ys st₁')
    (hds : Lines ds) (hes : Lines es) (he : e.kind = .eof) (he' : e'.kind = .eof)
    (hlast : last.kind = .eof) (htokens : st.tokens = ds ++ [e])
    (htokens₁ : st₁.tokens = es ++ [e']) (htokens₀ : st₀.tokens = ds ++ es ++ [last]) :
    ∃ st₂, (many atEnd (declLine rules)).Yields ctx st₀ (xs ++ ys) st₂ ∧ st₂.tokens = [last] := by
  rw [List.append_assoc] at htokens₀
  obtain ⟨st₂, htokens₂, hfirst⟩ :=
    collected_append moving tight (collected_of_collect hxs) hds he htokens htokens₀
  obtain ⟨st₃, htokens₃, hsecond⟩ :=
    collected_append moving tight (collected_of_collect hys) hes he' htokens₁ htokens₂
  have hend : atEnd.Yields ctx st₃ true st₃ := by
    refine (yields_of_peeks peeks_atEnd).2 ⟨?_, rfl⟩
    rw [ParseState.nextKind?, htokens₃]
    simp [hlast]
  have hall := hfirst (ys ++ []) st₃ (hsecond [] st₃ (.done hend))
  rw [List.append_nil] at hall
  refine ⟨st₃, yields_collect_of_collected local_atEnd ?_ hall, htokens₃⟩
  exact (moves_declLine moving).bind fun _ => local_pure

/-! ## The package clause -/

variable {clause : List Token} {name : String}

/-- A package clause at the end of its line is taken wherever it stands, and then the declarations
are read. -/
theorem exists_behind_clause (rules : Nested) (ctx : ParseContext)
    (hclause : clause.map (·.kind) = [.keyword .packageKw, .ident name, .semicolon true])
    (htokens : st.tokens = clause ++ rest) : ∃ package x st₁, st₁.tokens = rest ∧
      ∀ {front st'}, (fileFront rules).Yields ctx st front st' ↔
        ∃ xs, (many atEnd (declLine rules)).Yields ctx st₁ xs st' ∧ (package, x, xs) = front := by
  obtain ⟨keyword, clause, rfl, hkeyword, hclause⟩ := List.map_eq_cons_iff.1 hclause
  obtain ⟨ident, clause, rfl, hident, hclause⟩ := List.map_eq_cons_iff.1 hclause
  obtain ⟨semicolon, clause, rfl, hsemicolon, hclause⟩ := List.map_eq_cons_iff.1 hclause
  obtain rfl := List.map_eq_nil_iff.1 hclause
  obtain ⟨st₁, htakes₁, htokens₁⟩ := exists_takes htokens (by simp [hkeyword])
  obtain ⟨st₂, htakes₂, htokens₂⟩ := exists_takes htokens₁ (by simp [hident])
  obtain ⟨st₃, htakes₃, htokens₃⟩ := exists_takes htokens₂ (by simp [hsemicolon])
  have hpackage : (expectKeyword .packageKw).Yields ctx st keyword.span.start st₁ :=
    yields_expectKeyword_of_takes htakes₁ hkeyword
  have hname : expectIdent.Yields ctx st₁ ⟨ident.span.start, name⟩ st₂ :=
    yields_expectIdent_of_takes htakes₂ hident
  have hend : endOfDecl.Yields ctx st₂ () st₃ := yields_endOfDecl_of_takes htakes₃ hsemicolon
  refine ⟨keyword.span.start, ⟨ident.span.start, name⟩, st₃, htokens₃, fun {front st'} => ?_⟩
  refine ⟨fun h => ?_, ?_⟩
  · obtain ⟨_, _, hpackage', h⟩ := yields_bind.1 h
    obtain ⟨rfl, rfl⟩ := hpackage.unique hpackage'
    obtain ⟨_, _, hname', h⟩ := yields_bind.1 h
    obtain ⟨rfl, rfl⟩ := hname.unique hname'
    obtain ⟨_, _, hend', h⟩ := yields_bind.1 h
    obtain ⟨-, rfl⟩ := hend.unique hend'
    obtain ⟨xs, _, hxs, h⟩ := yields_bind.1 h
    obtain ⟨rfl, rfl⟩ := yields_pure.1 h
    exact ⟨xs, hxs, rfl⟩
  · rintro ⟨xs, hxs, rfl⟩
    refine yields_bind.2 ⟨_, st₁, hpackage, yields_bind.2 ⟨_, st₂, hname, ?_⟩⟩
    refine yields_bind.2 ⟨(), st₃, hend, yields_bind.2 ⟨xs, st', hxs, ?_⟩⟩
    exact yields_pure.2 ⟨rfl, rfl⟩

end Grammar

open Grammar

/-- The declarations of a file with a package clause are read behind it. -/
theorem exists_decls_of_parseTokens {clause rest : List Token} {name : String} {file : File}
    (hclause : clause.map (·.kind) = [.keyword .packageKw, .ident name, .semicolon true])
    (h : parseTokens (clause ++ rest) = .ok file) :
    ∃ st st', st.tokens = rest ∧
      (Parser.many Parser.atEnd (declLine (.level maxNesting))).Yields ⟨true⟩ st file.decls st' := by
  obtain ⟨st', hyields⟩ := parseTokens_eq_ok_iff.1 h
  obtain ⟨package, x, decls, t, st₁, hfront, -, rfl⟩ := yields_file_iff.1 hyields
  have hstart : (ParseState.mk (clause ++ rest) #[] .zero).tokens = clause ++ rest := rfl
  obtain ⟨_, _, st₂, htokens, hbehind⟩ :=
    exists_behind_clause (.level maxNesting) ⟨true⟩ hclause hstart
  obtain ⟨_, hdecls, heq⟩ := hbehind.1 hfront
  cases heq
  exact ⟨st₂, st₁, htokens, hdecls⟩

/-- **Declarations do not depend on their neighbours.** If the lines `ds` behind a package clause
are a file, and the lines `es` behind it too, then so are `ds` and `es` behind each other, and its
declarations are those of the one file and then those of the other, with all their places. -/
theorem decls_append {clause ds es : List Token} {e e' last : Token} {name : String}
    {file file' : File}
    (hclause : clause.map (·.kind) = [.keyword .packageKw, .ident name, .semicolon true])
    (hds : Lines ds) (hes : Lines es) (he : e.kind = .eof) (he' : e'.kind = .eof)
    (hlast : last.kind = .eof) (h : parseTokens (clause ++ ds ++ [e]) = .ok file)
    (h' : parseTokens (clause ++ es ++ [e']) = .ok file') :
    ∃ both, parseTokens (clause ++ ds ++ es ++ [last]) = .ok both ∧
      both.decls = file.decls ++ file'.decls := by
  rw [List.append_assoc] at h h'
  obtain ⟨st₁, _, htokens₁, hdecls⟩ := exists_decls_of_parseTokens hclause h
  obtain ⟨st₂, _, htokens₂, hdecls'⟩ := exists_decls_of_parseTokens hclause h'
  -- the state in which both are read is behind the same clause
  have hstart : (ParseState.mk (clause ++ ds ++ es ++ [last]) #[] .zero).tokens =
      clause ++ (ds ++ es ++ [last]) := by simp only [List.append_assoc]
  obtain ⟨package, x, st₀, htokens₀, hbehind⟩ :=
    exists_behind_clause (.level maxNesting) ⟨true⟩ hclause hstart
  obtain ⟨st₃, hboth, htokens₃⟩ := yields_decls_append (moving_level maxNesting)
    (tight_level maxNesting) hdecls hdecls' hds hes he he' hlast htokens₁ htokens₂ htokens₀
  obtain ⟨st₄, htakes, -⟩ := exists_takes htokens₃ (by simp [hlast])
  exact ⟨_, parseTokens_eq_ok_iff.2 ⟨st₄, yields_file_iff.2
    ⟨package, x, _, last, st₃, hbehind.2 ⟨_, hboth, rfl⟩, htakes, rfl⟩⟩, rfl⟩

/-- The tokens of `package p`. -/
def clauseTokens : List Token :=
  [.keyword .packageKw, .ident "p", .semicolon true].map TokenKind.token

/-- The tokens of `var x T`. -/
def varTokens : List Token :=
  [.keyword .varKw, .ident "x", .ident "T", .semicolon true].map TokenKind.token

/-- The tokens of `func f() {}`. -/
def funcTokens : List Token :=
  [.keyword .funcKw, .ident "f", .operator .lparen, .operator .rparen, .operator .lbrace,
    .operator .rbrace, .semicolon true].map TokenKind.token

instance (ts : List Token) : Decidable (Lines ts) :=
  decidable_of_iff ((∀ t ∈ ts, t.kind ≠ .eof) ∧ ∀ t ∈ ts.getLast?, t.kind = .semicolon true)
    ⟨fun h => ⟨h.1, h.2⟩, fun h => ⟨h.1, h.2⟩⟩

/-- A variable and a function that are each accepted alone are both declared in one file. -/
theorem decls_append_var_func : ∃ file file' both,
    parseTokens (clauseTokens ++ varTokens ++ [TokenKind.eof.token]) = .ok file ∧
    parseTokens (clauseTokens ++ funcTokens ++ [TokenKind.eof.token]) = .ok file' ∧
    parseTokens (clauseTokens ++ varTokens ++ funcTokens ++ [TokenKind.eof.token]) = .ok both ∧
    both.decls = file.decls ++ file'.decls ∧ both.decls.length = 2 := by
  have hvar : ((parseTokens (clauseTokens ++ varTokens ++ [TokenKind.eof.token])).toOption.any
      fun file => file.decls.length == 1) := by decide +kernel
  have hfunc : ((parseTokens (clauseTokens ++ funcTokens ++ [TokenKind.eof.token])).toOption.any
      fun file => file.decls.length == 1) := by decide +kernel
  cases h : parseTokens (clauseTokens ++ varTokens ++ [TokenKind.eof.token]) with
  | error fault =>
    rw [h] at hvar
    cases hvar
  | ok file =>
    cases h' : parseTokens (clauseTokens ++ funcTokens ++ [TokenKind.eof.token]) with
    | error fault =>
      rw [h'] at hfunc
      cases hfunc
    | ok file' =>
      have hclause : clauseTokens.map (·.kind) =
        [.keyword .packageKw, .ident "p", .semicolon true] := rfl
      have heof : TokenKind.eof.token.kind = .eof := rfl
      obtain ⟨both, hboth, hdecls⟩ := decls_append hclause (by decide +kernel) (by decide +kernel)
        heof heof heof h h'
      rw [h] at hvar
      rw [h'] at hfunc
      refine ⟨file, file', both, rfl, rfl, hboth, hdecls, ?_⟩
      rw [hdecls, List.length_append, beq_iff_eq.1 hvar, beq_iff_eq.1 hfunc]

end GoTrace
