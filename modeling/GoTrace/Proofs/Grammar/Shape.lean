import GoTrace.Proofs.Grammar.Formed
import GoTrace.Proofs.Grammar.Places

/-!
# The shape of a parsed tree

The optional parts of every node in the tree of a text fit together, since the rules put them so
(`formed_of_parseTokens`). One condition is about places: the two arrows of channel types are told
apart by the side of the keyword that they stand on. It holds because the tokens of a node are read
in the order of its layout.
-/

namespace GoTrace

/-- The arrow of a channel type stands in front of the keyword for receiving, behind it for sending.
-/
def Node.ArrowPlaced : Node → Prop
  | .expr (.chanType chan (some arrow) dir _) =>
    (dir = .recv → arrow < chan) ∧ (dir = .send → chan < arrow)
  | _ => True

theorem Node.arrowPlaced_of_reads {node : Node} {st st' : ParseState}
    (h : node.layout.Reads st st') (hordered : Ordered st.tokens) : node.ArrowPlaced := by
  unfold ArrowPlaced
  split
  · rename_i chan arrow dir value
    obtain ⟨-, rows, heq, hrows⟩ := h
    obtain rfl := (Layout.node.inj heq).2.2
    constructor
    · rintro rfl
      exact hrows.lt_of_word hordered rfl List.mem_cons_self List.mem_cons_self
    · rintro rfl
      -- the row for an arrow in front of the keyword stands for nothing here
      cases hrows with
      | silent _ hrows =>
        have harrow : Row.token "<-" (some arrow) ∈ [.checkpoint "AfterChan" true,
            .token "<-" (some arrow), .checkpoint "AfterArrow" true, .child value.layout] := by simp
        exact hrows.lt_of_word hordered rfl harrow List.mem_cons_self
      | word hword => cases hword
  · trivial

/-- **The tree of a text has the shape that its users rely on**: at every node the optional parts
fit together, signatures have their keyword where they should, and arrows are on their side. -/
theorem shape_of_parse {text : String} {file : File} (h : parse text = .ok file) :
    ∀ node ∈ file.nodes, node.Formed ∧ node.Keyed ∧ node.ArrowPlaced := by
  intro node hnode
  obtain ⟨hformed, hkeyed⟩ := formed_of_parseTokens h node hnode
  refine ⟨hformed, hkeyed, ?_⟩
  rcases reads_of_mem_nodes h node hnode with rfl | ⟨ts, st, st', htaken, hreads⟩
  · trivial
  · exact Node.arrowPlaced_of_reads hreads (htaken.apart (apart_of_parse h)).ordered

/-- An interface, channels for either direction, a slice with three bounds, a type switch, and an
`else` behind a header. -/
def variedText : String :=
  "package p\n\ntype r interface \x7b\n\tio.R\n\tF() x\n\x7d\n\n" ++
  "func f(in <-chan t, out chan<- t) \x7b\n\tif x := a[1:2:3]; x \x7b\n\t\x7d else \x7b\n\t\x7d\n" ++
  "\tswitch y.(type) \x7b\n\t\x7d\n\x7d\n"

/-- `variedText` has a tree of that shape, with two channel types in it. -/
theorem shape_of_variedText : ∃ file, parse variedText = .ok file ∧
    file.layout.preorder.countP (·.kind = .chanType) = 2 ∧
    ∀ node ∈ file.nodes, node.Formed ∧ node.Keyed ∧ node.ArrowPlaced := by
  have hparsed : (parse variedText).toOption.map
      (fun file => file.layout.preorder.countP (·.kind = .chanType)) = some 2 := by decide +kernel
  cases h : parse variedText with
  | error fault =>
    rw [h] at hparsed
    cases hparsed
  | ok file =>
    rw [h] at hparsed
    exact ⟨file, rfl, Option.some.inj hparsed, shape_of_parse h⟩

end GoTrace
