import GoTrace.Proofs.Grammar.Formed
import GoTrace.Proofs.Grammar.Places
import GoTrace.Proofs.Syntax.Stops

/-!
# The spans of a parsed tree

The span of a node is worked out from its tokens and parts, some of which may be missing. In the
tree of a text it is what one would hope for: it lies in the text, the spans of the parts are in
order in it (`Node.Arranged`), and it goes from the start of a token to the end of a token. Only a
node with an open end has no token there; it stops where the closing brace starts (`Node.StopsIn`).
The signature of a declared function is no node of the tree, but it has a span of the same kind
(`FuncDecl.spanned_signature`).
-/

namespace GoTrace

/-- The span of a node lies in the text, with its ends between characters, and the spans of its
parts lie in it, in order and without overlap. -/
structure Node.Arranged (text : String) (node : Node) : Prop where
  le : node.span.start ≤ node.span.stop
  le_size : node.span.stop.toNat ≤ text.utf8ByteSize
  startValid : String.Pos.Raw.IsValid text ⟨node.span.start.toNat⟩
  stopValid : String.Pos.Raw.IsValid text ⟨node.span.stop.toNat⟩
  parts : node.parts.Pairwise fun part next =>
    part.span.start < next.span.start ∧ part.span.stop ≤ next.span.start
  within : ∀ part ∈ node.parts,
    node.span.start ≤ part.span.start ∧ part.span.stop ≤ node.span.stop

/-- A node of a file stops with a token, or, with an open end, at the closing brace of a block that
it is in. -/
def Node.StopsIn (text : String) (file : File) (node : Node) : Prop :=
  match node.openEnd? with
  | none => TokenStops (tokens text) node.span.stop
  | some place => node.span.stop = place ∧ (place, "\x7d") ∈ words (tokens text) ∧
    ∃ b : Block, .stmt (.block b) ∈ file.nodes ∧ node ∈ (Node.stmt (.block b)).preorder ∧
      b.rbrace = place

/-- A node of a file that spans what it should: from the start of a token to the end of a token or
to its open end, with its parts in order. -/
structure Node.Spanned (text : String) (file : File) (node : Node) : Prop where
  arranged : node.Arranged text
  starts : TokenStarts (tokens text) node.span.start
  stops : node.StopsIn text file

/-- The signatures of the functions that a file declares. They have spans, but their parts are those
of the declarations, so they are no nodes. -/
def File.signatures (file : File) : List Node :=
  file.decls.filterMap fun
    | .func decl => some (.expr (.funcType decl.type))
    | .bad _ | .gen _ => none

namespace Node

variable {node : Node} {st st' : ParseState}

/-- The closing brace of a block that is read is one of the tokens. -/
theorem rbrace_mem_words {b : Block} (h : (Node.stmt (.block b)).layout.Reads st st')
    (hordered : Ordered st.tokens) : (b.rbrace, "\x7d") ∈ words st.tokens := by
  obtain ⟨lbrace, stmts, rbrace⟩ := b
  obtain ⟨-, rows, heq, hrows⟩ := h
  obtain rfl := (Layout.node.inj heq).2.2
  apply hrows.words_subset hordered .blockStmt 0
  have hrow : Row.token "\x7d" (some rbrace) ∈ [.token "\x7b" (some lbrace),
      .checkpoint "AfterLbrace" true, .list (Stmt.layouts stmts) [],
      .token "\x7d" (some rbrace)] := by
    simp
  exact Row.words_subset hrow List.mem_cons_self

/-- **A node without an open end stops with a token**, behind its start. -/
theorem tokenStops_of_closed (h : node.AllFormed) (hclosed : node.openEnd? = none)
    (hreads : node.layout.Reads st st') (hapart : Apart st.tokens) :
    TokenStops st.tokens node.layout.stop ∧ node.layout.start < node.layout.stop := by
  induction node using Node.preorder.induct generalizing st st' with
  | _ node ih =>
  obtain ⟨hopens, rows, heq, hrows⟩ := hreads
  suffices hstops : TokenStops st.tokens node.layout.stop by
    refine ⟨hstops, ?_⟩
    obtain ⟨t, ht, -, hlt, -, hstop⟩ := hstops
    exact hstop ▸ Nat.lt_of_le_of_lt (hopens.fits hapart.spaced t ht) hlt
  rcases hrows.stop_cases hapart.spaced with ⟨-, hheads⟩ | hstops | ⟨l, hl, hstop⟩
  · obtain ⟨rows', heq', row, hrow, hhead⟩ := exists_head h.formed hclosed
    rw [heq] at heq'
    obtain rfl := Option.some.inj heq'
    exact absurd (hheads row hrow) hhead
  · exact hstops
  · obtain ⟨_, _, _, htaken, hreads⟩ := hrows.exists_reads rfl l hl
    rw [parts_rows heq] at hl
    obtain ⟨part, hpart, rfl⟩ := List.mem_map.1 hl
    have hstop : part.layout.stop = node.layout.stop := hstop
    cases hopen : part.openEnd? with
    | none =>
      rw [← hstop]
      apply htaken.tokenStops
      exact (ih part hpart (h.of_mem_parts hpart) hopen hreads (htaken.apart hapart)).1
    | some place =>
      -- only a block has a part with an open end and none itself
      rcases openEnd?_of_mem_parts h.formed hpart hopen with hnode | ⟨b, rfl, -⟩
      · rw [hclosed] at hnode
        cases hnode
      · have hbrace := rbrace_mem_words ⟨hopens, rows, heq, hrows⟩ hapart.ordered
        cases b
        exact hapart.tokenStops_of_mem_words hbrace

/-- The parts of a node whose rows are read are in order, between the ends of the reading. -/
theorem pairwise_parts {kind : NodeKind} {span : Span} {rows : List Row} {p q : Point}
    (h : node.AllFormed) (heq : node.layout = .node kind span rows)
    (hrows : ReadsRows true false rows p q) (hapart : Apart p.state.tokens) (hfits : p.Fits) :
    (node.parts.Pairwise fun part next =>
      part.span.start < next.span.start ∧ part.span.stop ≤ next.span.start) ∧
      ∀ part ∈ node.parts, p.place ≤ part.span.start ∧ part.span.stop ≤ q.place := by
  obtain ⟨horder, -⟩ := hrows.inOrder hapart.spaced hfits
  have hlt : ∀ part ∈ node.parts, part.openEnd? = none → part.span.start < part.span.stop := by
    intro part hpart hclosed
    obtain ⟨_, _, _, htaken, hreads⟩ :=
      hrows.exists_reads rfl part.layout (parts_rows heq ▸ List.mem_map_of_mem hpart)
    exact (tokenStops_of_closed (h.of_mem_parts hpart) hclosed hreads (htaken.apart hapart)).2
  rw [parts_rows heq, List.map_map] at horder
  constructor
  · have hpairs := (List.pairwise_map.1 horder.pairwise).and (pairwise_closed h.formed)
    refine hpairs.imp_of_mem fun {part next} hpart _ ⟨hle, hclosed⟩ => ⟨?_, hle⟩
    exact Nat.lt_of_lt_of_le (hlt part hpart hclosed) hle
  · intro part hpart
    obtain ⟨hstart, -, hstop⟩ := horder.bounds _ (List.mem_map_of_mem hpart)
    exact ⟨hstart, hstop⟩

end Node

section

variable {text : String} {file : File} (h : parse text = .ok file)

include h

theorem Node.stopsIn_of_parse {node : Node} (hnode : node ∈ file.nodes) {ts : List Token}
    {st st' : ParseState} (htaken : Consumes ⟨tokens text, #[], .zero⟩ ts st)
    (hreads : node.layout.Reads st st') : node.StopsIn text file := by
  have hapart := htaken.apart (apart_of_parse h)
  have hformed : (Node.file file).AllFormed := formed_of_parseTokens h
  unfold StopsIn
  split
  · rename_i hclosed
    apply htaken.tokenStops
    exact (tokenStops_of_closed (hformed.of_mem_preorder hnode) hclosed hreads hapart).1
  · rename_i place hopen
    rcases block_of_openEnd? hformed hnode hopen with hfile | ⟨b, hb, hin, rfl⟩
    · cases hfile
    refine ⟨stop_of_openEnd? hopen, ?_, b, hb, hin, rfl⟩
    rcases reads_of_mem_nodes h _ hb with hfile | ⟨_, _, _, hfront, hblock⟩
    · cases hfile
    apply hfront.words_suffix.subset
    exact rbrace_mem_words hblock (hfront.apart (apart_of_parse h)).ordered

/-- A place where a token starts lies between characters. -/
theorem isValid_of_tokenStarts {place : Offset} (hstarts : TokenStarts (tokens text) place) :
    String.Pos.Raw.IsValid text ⟨place.toNat⟩ := by
  obtain ⟨t, ht, -, rfl⟩ := hstarts
  exact (isValid_of_mem_tokens (size_of_parse h) ht).2.1

/-- A place where a node stops lies between characters. -/
theorem Node.StopsIn.isValid {node : Node} (hstops : node.StopsIn text file) :
    String.Pos.Raw.IsValid text ⟨node.span.stop.toNat⟩ := by
  unfold StopsIn at hstops
  split at hstops
  · obtain ⟨t, ht, -, -, -, hstop⟩ := hstops
    rw [← hstop]
    exact (isValid_of_mem_tokens (size_of_parse h) ht).2.2
  · obtain ⟨hstop, hbrace, -⟩ := hstops
    rw [hstop]
    exact isValid_of_tokenStarts h (tokenStarts_of_mem_words hbrace)

theorem Node.spanned_of_reads {node : Node} (hnode : node ∈ file.nodes) {ts : List Token}
    {st st' : ParseState} (htaken : Consumes ⟨tokens text, #[], .zero⟩ ts st)
    (hreads : node.layout.Reads st st') : node.Spanned text file := by
  have hapart := htaken.apart (apart_of_parse h)
  have hformed : (Node.file file).AllFormed := formed_of_parseTokens h
  have hstarts := htaken.tokenStarts hreads.1.tokenStarts
  have hstops := stopsIn_of_parse h hnode htaken hreads
  have hvalid := Node.StopsIn.isValid h hstops
  have hle : node.span.start ≤ node.span.stop := (hreads.inOrder hapart.spaced).le
  obtain ⟨hopens, rows, heq, hrows⟩ := hreads
  obtain ⟨hparts, hwithin⟩ := pairwise_parts (hformed.of_mem_preorder hnode) heq hrows hapart
    (hopens.fits hapart.spaced)
  exact ⟨⟨hle, hvalid.le_utf8ByteSize, isValid_of_tokenStarts h hstarts, hvalid, hparts, hwithin⟩,
    hstarts, hstops⟩

theorem Node.spanned_of_parse {node : Node} (hnode : node ∈ file.nodes)
    (hfile : node ≠ .file file) : node.Spanned text file := by
  rcases reads_of_mem_nodes h node hnode with rfl | ⟨_, _, _, htaken, hreads⟩
  · exact absurd rfl hfile
  · exact spanned_of_reads h hnode htaken hreads

/-- A file spans the text, and its parts are in order. -/
theorem File.arranged_of_parse : (Node.file file).Arranged text := by
  obtain ⟨rows, q, hlayout, hstart, hstop, hrows, -, -⟩ := reads_of_parse h
  have hlayout : (Node.file file).layout = .node .file file.span rows := hlayout
  have hspan : (Node.file file).span = file.span := rfl
  have hparts := Node.pairwise_parts (formed_of_parseTokens h) hlayout hrows (apart_of_parse h)
    fun _ _ => Nat.zero_le _
  refine ⟨?_, ?_, ?_, ?_, hparts.1, fun part hpart => ?_⟩
  · rw [hspan, hstart]
    exact Nat.zero_le _
  · rw [hspan, hstop]
  · rw [hspan, hstart]
    exact String.Pos.Raw.isValid_zero
  · rw [hspan, hstop]
    exact String.Pos.Raw.isValid_rawEndPos
  · obtain ⟨_, _, _, htaken, hreads⟩ :=
      hrows.exists_reads rfl part.layout (Node.parts_rows hlayout ▸ List.mem_map_of_mem hpart)
    have hnode := Node.preorder_subset_of_mem_parts hpart part.mem_preorder_self
    rw [hspan, hstart, Offset.le_def, Offset.le_def, hstop]
    exact ⟨Nat.zero_le _, (Node.spanned_of_reads h hnode htaken hreads).arranged.le_size⟩

omit h in
/-- The signature of a declared function goes from its parameters to its results. -/
theorem FuncDecl.spanned_signature {decl : FuncDecl} (hfunc : decl.type.func? = none)
    (hdecl : (Node.decl (.func decl)).Arranged text)
    (hparts : ∀ part ∈ (Node.decl (.func decl)).parts, part.Spanned text file) :
    (Node.expr (.funcType decl.type)).Spanned text file := by
  obtain ⟨func, receiver?, name, ⟨func?, params, results?⟩, body?⟩ := decl
  obtain rfl : func? = none := hfunc
  have hparams : (Node.fieldList params).Spanned text file :=
    hparts _ (by simp [Node.parts, Decl.parts])
  cases results? with
  | none =>
    obtain ⟨⟨hle, hsize, hstart, hstop, -, -⟩, hstarts, hstops⟩ := hparams
    refine ⟨⟨hle, hsize, hstart, hstop, List.pairwise_singleton _ _, ?_⟩, hstarts, hstops⟩
    exact List.forall_mem_singleton.2 ⟨Nat.le_refl _, Nat.le_refl _⟩
  | some results =>
    have hresults : (Node.fieldList results).Spanned text file :=
      hparts _ (by simp [Node.parts, Decl.parts])
    have hpair : [Node.fieldList params, .fieldList results].Sublist
        (Node.decl (.func ⟨func, receiver?, name, ⟨none, params, some results⟩, body?⟩)).parts := by
      have hfront : [Node.fieldList params].Sublist
          (receiver?.toList.map .fieldList ++ [.expr (.ident name), .fieldList params]) :=
        List.singleton_sublist.2 (by simp)
      exact (hfront.append (.refl [.fieldList results])).trans (List.sublist_append_left ..)
    have hpair := hdecl.parts.sublist hpair
    have hbefore := (List.rel_of_pairwise_cons hpair List.mem_cons_self).2
    have hle := Nat.le_trans hparams.arranged.le hbefore
    have hle' := Nat.le_trans hbefore hresults.arranged.le
    refine ⟨⟨Nat.le_trans hle hresults.arranged.le, hresults.arranged.le_size,
      hparams.arranged.startValid, hresults.arranged.stopValid, hpair, ?_⟩, hparams.starts,
      hresults.stops⟩
    refine List.forall_mem_cons.2 ⟨⟨Nat.le_refl _, hle'⟩, ?_⟩
    exact List.forall_mem_singleton.2 ⟨hle, Nat.le_refl _⟩

end

/-- **The spans of a tree are those of its tokens.** Every node lies in the text, between
characters, with its parts in order and without overlap; the file spans the whole text, and any
other node goes from the start of a token to the end of one, or, with an open end, to a closing
brace. -/
theorem spans_of_parse {text : String} {file : File} (h : parse text = .ok file) :
    (Node.file file).Arranged text ∧ file.span.start = .zero ∧
      file.span.stop.toNat = text.utf8ByteSize ∧
      ∀ node ∈ file.nodes ++ file.signatures, node = .file file ∨ node.Spanned text file := by
  obtain ⟨_, _, -, hstart, hstop, -, -, -⟩ := reads_of_parse h
  refine ⟨File.arranged_of_parse h, hstart, hstop, fun node hnode => ?_⟩
  by_cases hfile : node = .file file
  · exact .inl hfile
  rcases List.mem_append.1 hnode with hnode | hnode
  · exact .inr (Node.spanned_of_parse h hnode hfile)
  · right
    obtain ⟨d, hd, hsome⟩ := List.mem_filterMap.1 hnode
    cases d with
    | bad span => cases hsome
    | gen decl => cases hsome
    | func decl =>
      obtain rfl := Option.some.inj hsome
      have hpart : .decl (.func decl) ∈ (Node.file file).parts :=
        List.mem_cons_of_mem _ (List.mem_map_of_mem hd)
      have hsubset := Node.preorder_subset_of_mem_parts hpart
      have hmem := hsubset (Node.mem_preorder_self _)
      apply FuncDecl.spanned_signature (formed_of_parseTokens h _ hmem).1
      · exact (Node.spanned_of_parse h hmem nofun).arranged
      · intro part hpart
        apply Node.spanned_of_parse h
        · exact hsubset (Node.preorder_subset_of_mem_parts hpart part.mem_preorder_self)
        · rintro rfl
          simp [Node.parts, Decl.parts] at hpart

/-- A function with a label at its end. -/
def labelText : String := "package p\n\nfunc f() \x7b\nL:\n\x7d\n"

/-- In `labelText` the label has an open end, and so has the implicit empty statement behind it. -/
theorem spans_of_labelText : ∃ file, parse labelText = .ok file ∧
    (Node.file file).Arranged labelText ∧ file.span.start = .zero ∧
    file.span.stop.toNat = labelText.utf8ByteSize ∧
    ∀ node ∈ file.nodes ++ file.signatures, node = .file file ∨ node.Spanned labelText file := by
  have hparsed : (parse labelText).toOption.isSome := by decide +kernel
  cases h : parse labelText with
  | error fault =>
    rw [h] at hparsed
    cases hparsed
  | ok file => exact ⟨file, rfl, spans_of_parse h⟩

/-- The body of a declared function. -/
def Decl.body? : Decl → Option Block
  | .func decl => decl.body?
  | .bad _ | .gen _ => none

theorem Decl.mem_parts_of_body? {d : Decl} {b : Block} (h : d.body? = some b) :
    .stmt (.block b) ∈ (Node.decl d).parts := by
  cases d with
  | func decl =>
    have hbody : decl.body? = some b := h
    simp [Node.parts, Decl.parts, hbody]
  | bad span => cases h
  | gen decl => cases h

/-- A node does not stop at a closing brace only because its last descendant does: the block in
`labelText` has the implicit empty statement for its last descendant and stops behind its brace. -/
theorem block_stops_behind_brace : ∃ file, parse labelText = .ok file ∧ ∃ node ∈ file.nodes,
    node.kind = .blockStmt ∧
    (∃ place, node.preorder.getLast? = some (.stmt (.empty place true)) ∧
      (place, "\x7d") ∈ words (tokens labelText) ∧ node.span.stop ≠ place) ∧
    (node.span.stop, "\x7d") ∉ words (tokens labelText) := by
  have hparsed : ((parse labelText).toOption.any fun file => file.decls.any fun d =>
      d.body?.any fun b => Stmt.lastOpenEnd? b.stmts = some b.rbrace ∧
        (b.rbrace, "\x7d") ∈ words (tokens labelText) ∧ b.rbrace.advance 1 ≠ b.rbrace ∧
        (b.rbrace.advance 1, "\x7d") ∉ words (tokens labelText)) := by decide +kernel
  cases h : parse labelText with
  | error fault =>
    rw [h] at hparsed
    cases hparsed
  | ok file =>
    rw [h] at hparsed
    obtain ⟨d, hd, hparsed⟩ := List.any_eq_true.1 hparsed
    obtain ⟨b, hb, hparsed⟩ := (Option.any_eq_true _ _).1 hparsed
    obtain ⟨hopen, hbrace, hne, hnot⟩ := of_decide_eq_true hparsed
    have hdecl : .decl d ∈ (Node.file file).parts :=
      List.mem_cons_of_mem _ (List.mem_map_of_mem hd)
    have hnode : .stmt (.block b) ∈ file.nodes :=
      Node.preorder_subset_of_mem_parts hdecl
        (Node.preorder_subset_of_mem_parts (Decl.mem_parts_of_body? hb) (Node.mem_preorder_self _))
    rw [Stmt.lastOpenEnd?_eq, Option.bind_eq_some_iff] at hopen
    obtain ⟨stmt, hstmt, hopen⟩ := hopen
    obtain ⟨lbrace, stmts, rbrace⟩ := b
    have hlast : (Node.stmt (.block ⟨lbrace, stmts, rbrace⟩)).parts.getLast? =
        some (.stmt stmt) := by
      simpa [Node.parts, Stmt.parts] using hstmt
    refine ⟨file, rfl, _, hnode, rfl, ⟨rbrace, ?_, hbrace, hne⟩, hnot⟩
    rw [Node.getLast?_preorder hlast]
    exact Node.getLast?_preorder_of_openEnd? hopen

end GoTrace
