import Fillout.Proofs.Template.Delimiters

set_option autoImplicit false

/-! # The places of containers

The containers of a text can be found in one pass over its bytes that remembers the last opener it
has come by. A closer ends a container that starts at this opener, and the opener is forgotten;
without an opener to remember, a closer is plain text. The pass finds what `containers` finds
(`spans_eq`), although that looks for openers and closers from place to place, and for the innermost
opener backwards.

From this it is seen what the places are good for: they stand one behind the other, each can be cut
at, and cutting at all of them takes the text apart into the containers and what stands between them
(`spans_exact`).
-/

namespace Fillout

namespace Text

/-! ## Cutting at bytes -/

/-- What stands before and behind the first `n` bytes of a text; `none` if the text is shorter, or
if a character reaches over the place. -/
def cutBytes? : Nat → Text → Option (Text × Text)
  | 0, t => some ([], t)
  | _ + 1, [] => none
  | n + 1, c :: t =>
      if c.utf8Size ≤ n + 1 then
        (cutBytes? (n + 1 - c.utf8Size) t).map fun (before, after) => (c :: before, after)
      else
        none

/-- The part of a text between two places, given in bytes. -/
def slice? (t : Text) (start stop : Nat) : Option Text :=
  (cutBytes? stop t).bind fun (before, _) => (cutBytes? start before).map (·.2)

/-- `needle` stands in a text behind its first `n` bytes. -/
def StandsAt (t : Text) (n : Nat) (needle : Text) : Prop :=
  ∃ before after, t = before ++ needle ++ after ∧ before.utf8Length = n

theorem cutBytes?_append (before after : Text) :
    cutBytes? before.utf8Length (before ++ after) = some (before, after) := by
  induction before with
  | nil => rw [utf8Length_nil, List.nil_append, cutBytes?]
  | cons c before ih =>
      obtain ⟨n, hn⟩ : ∃ n, c.utf8Size + utf8Length before = n + 1 :=
        Nat.exists_eq_add_one.2 (Nat.add_pos_left c.utf8Size_pos _)
      have hrest : n + 1 - c.utf8Size = utf8Length before := by omega
      rw [utf8Length_cons, hn, List.cons_append, cutBytes?, if_pos (by omega), hrest, ih]
      rfl

theorem slice?_append (before part after : Text) :
    slice? (before ++ part ++ after) before.utf8Length (before ++ part).utf8Length = some part := by
  unfold slice?
  rw [cutBytes?_append, Option.bind_some]
  show (cutBytes? before.utf8Length (before ++ part)).map _ = _
  rw [cutBytes?_append]
  rfl

/-- Of two texts that the same text begins with, the one with more bytes begins with the other. -/
theorem exists_append_of_utf8Length_le {s t x y : Text} (h : s ++ x = t ++ y)
    (hle : utf8Length s ≤ utf8Length t) : ∃ z, t = s ++ z ∧ x = z ++ y := by
  rcases List.append_eq_append_iff.1 h with ⟨z, rfl, rfl⟩ | ⟨z, rfl, rfl⟩
  · exact ⟨z, rfl, rfl⟩
  · have hz : z = [] := by
      cases z with
      | nil => rfl
      | cons c z =>
          have hpos := c.utf8Size_pos
          rw [utf8Length_append, utf8Length_cons] at hle
          omega
    subst hz
    exact ⟨[], by simp, by simp⟩

end Text

namespace Template

open Text (cut? cutLast? cutBytes? slice? StandsAt)

/-! ## The pass -/

/-- The place of a container: where its opener starts and its closer ends, in bytes, and its
body. -/
structure Span where
  start : Nat
  stop : Nat
  body : Text
  deriving DecidableEq

/-- The spans that a pass finds from `pos` on. It remembers where the last opener starts, and the
text since. -/
def spansFrom : Nat → Option (Nat × Text) → Text → List Span
  | pos, _, '$' :: '{' :: rest => spansFrom (pos + 2) (some (pos, [])) rest
  | pos, some (start, body), '}' :: '$' :: rest =>
      ⟨start, pos + 2, body⟩ :: spansFrom (pos + 2) none rest
  | pos, mark, c :: rest =>
      spansFrom (pos + c.utf8Size) (mark.map fun (start, body) => (start, body ++ [c])) rest
  | _, _, [] => []

/-- The spans of a text, in one pass from its start. -/
def spans (source : Text) : List Span := spansFrom 0 none source

/-- The place of a container in its text. -/
def Container.span (c : Container) : Span := ⟨c.start, c.stop, c.body⟩

namespace Span

/-- A text with what stands between two places of it replaced by `value`. -/
def substitute? (sp : Span) (source value : Text) : Option Text := do
  let (before, _) ← cutBytes? sp.start source
  let (_, after) ← cutBytes? sp.stop source
  return before ++ value ++ after

/-- What stands between the spans of a text, and what stands in them, from `pos` on. -/
def partsFrom? (source : Text) (pos : Nat) : List Span → Option (List Text)
  | [] => (slice? source pos source.utf8Length).map ([·])
  | sp :: sps => do
      let gap ← slice? source pos sp.start
      let part ← slice? source sp.start sp.stop
      let parts ← partsFrom? source sp.stop sps
      return gap :: part :: parts

end Span

/-! ## What the pass finds -/

theorem utf8Length_opener (t : Text) : Text.utf8Length ('$' :: '{' :: t) = 2 + t.utf8Length := by
  rw [Text.utf8Length_cons, Text.utf8Length_cons, ← Nat.add_assoc]
  rfl

/-- The span that ends at a closer if `text` stands in front of this closer, from `pos` on, and an
opener at `start` is remembered at `pos` with `body` since. -/
def closedSpan (pos start : Nat) (body text : Text) : Span :=
  match cutLast? opener text with
  | none => ⟨start, pos + text.utf8Length + 2, body ++ text⟩
  | some (before, inner) => ⟨pos + before.utf8Length, pos + text.utf8Length + 2, inner⟩

theorem closedSpan_opener (pos start : Nat) (body text : Text) :
    closedSpan pos start body ('$' :: '{' :: text) = closedSpan (pos + 2) pos [] text := by
  unfold closedSpan
  rw [cutLast?_opener_opener, utf8Length_opener]
  cases cutLast? opener text with
  | none => simp [Nat.add_assoc]
  | some found => simp only [utf8Length_opener, Nat.add_assoc]

theorem closedSpan_cons {c : Char} {text : Text} (h : ∀ rest, c = '$' → text = '{' :: rest → False)
    (pos start : Nat) (body : Text) :
    closedSpan pos start body (c :: text) =
      closedSpan (pos + c.utf8Size) start (body ++ [c]) text := by
  unfold closedSpan
  rw [opener, Text.cutLast?_pair_cons h]
  cases cutLast? ['$', '{'] text with
  | none => simp [Nat.add_assoc]
  | some found => simp [Nat.add_assoc]

/-- As long as no opener is remembered, the pass goes on to the next one. -/
theorem spansFrom_none (pos : Nat) (t : Text) :
    spansFrom pos none t =
      match cut? opener t with
      | none => []
      | some (gap, inner) =>
          spansFrom (pos + gap.utf8Length + 2) (some (pos + gap.utf8Length, [])) inner := by
  generalize hm : none = mark
  fun_induction spansFrom pos mark t with
  | case1 => rfl
  | case2 => cases hm
  | case3 pos mark c rest hopen hclose ih =>
    subst hm
    rw [ih rfl, opener, Text.cut?_pair_cons hopen]
    cases cut? ['$', '{'] rest with
    | none => rfl
    | some found => simp [Nat.add_assoc]
  | case4 => rfl

/-- With an opener remembered, the pass goes on to the next closer, and forgets it there. -/
theorem spansFrom_some (pos start : Nat) (body t : Text) :
    spansFrom pos (some (start, body)) t =
      match cut? closer t with
      | none => []
      | some (text, rest) =>
          closedSpan pos start body text :: spansFrom (pos + text.utf8Length + 2) none rest := by
  generalize hm : some (start, body) = mark
  fun_induction spansFrom pos mark t generalizing start body with
  | case1 pos _ rest ih =>
    rw [ih _ _ rfl, closer, Text.cut?_pair_cons (by rintro _ ⟨⟩),
      Text.cut?_pair_cons (by rintro _ ⟨⟩)]
    cases cut? ['}', '$'] rest with
    | none => rfl
    | some found =>
        obtain ⟨text, rest⟩ := found
        have hpos : pos + Text.utf8Length ('$' :: '{' :: text) = pos + 2 + text.utf8Length := by
          rw [utf8Length_opener, Nat.add_assoc]
        simp only [Option.map_some, closedSpan_opener, hpos]
  | case2 pos start' body' rest ih =>
    cases hm
    rw [show cut? closer ('}' :: '$' :: rest) = some ([], rest) from if_pos (by simp [closer])]
    simp [closedSpan, cutLast?, opener]
  | case3 pos mark c rest hopen hclose ih =>
    subst hm
    have hnot : ∀ rest', c = '}' → rest = '$' :: rest' → False :=
      fun rest' => hclose start body rest' rfl
    rw [ih _ _ rfl, closer, Text.cut?_pair_cons hnot]
    cases hcut : cut? ['}', '$'] rest with
    | none => rfl
    | some found =>
        obtain ⟨text, rest'⟩ := found
        -- no opener begins at `c` in front of the closer either
        have hopen' : ∀ u, c = '$' → text = '{' :: u → False := by
          rintro u hc rfl
          exact hopen _ hc (Text.append_of_cut? hcut).symm
        simp [closedSpan_cons hopen', Nat.add_assoc]
  | case4 => rfl

/-- The closed span is the innermost container. -/
theorem closedSpan_innermost (before gap span rest : Text) :
    closedSpan (before.utf8Length + gap.utf8Length + 2)
        (before.utf8Length + gap.utf8Length) [] span =
      Container.span ⟨before ++ (innermost gap span).1, (innermost gap span).2, rest⟩ := by
  have hopener : opener.utf8Length = 2 := rfl
  have hcloser : closer.utf8Length = 2 := rfl
  unfold closedSpan innermost Container.span Container.start Container.stop
  split
  · rename_i hlast
    simp [hlast, hopener, hcloser]
    omega
  · rename_i b inner hlast
    have hspan := congrArg Text.utf8Length (Text.append_of_cutLast? hlast)
    simp only [Text.utf8Length_append] at hspan
    simp [hlast, hopener, hcloser]
    omega

/-- Behind any text, the pass finds the containers. -/
theorem spansFrom_eq (before source : Text) :
    spansFrom before.utf8Length none source =
      (containersBehind before (pieces source)).map Container.span := by
  fun_induction pieces source generalizing before with
  | case1 source ho =>
    rw [spansFrom_none, ho]
    rfl
  | case2 source gap inner ho hc =>
    rw [spansFrom_none, ho]
    dsimp only
    rw [spansFrom_some, hc]
    rfl
  | case3 source gap inner ho span rest hc ih =>
    have hbefore : (before ++ (gap ++ opener ++ span ++ closer)).utf8Length =
        before.utf8Length + gap.utf8Length + 2 + span.utf8Length + 2 := by
      simp only [Text.utf8Length_append, show opener.utf8Length = 2 from rfl,
        show closer.utf8Length = 2 from rfl, Nat.add_assoc]
    rw [spansFrom_none, ho]
    dsimp only
    rw [spansFrom_some, hc]
    dsimp only
    rw [containersBehind, containersBehind, List.map_cons, List.append_assoc before,
      innermost_append_text, ← ih, hbefore, closedSpan_innermost before gap span]

/-- The pass finds exactly the containers of a text. -/
theorem spans_eq (source : Text) : spans source = (containers source).map Container.span :=
  spansFrom_eq [] source

/-! ## Places that can be cut at -/

theorem cutBytes?_start {source : Text} {c : Container} (h : c ∈ containers source) :
    cutBytes? c.start source = some (c.before, c.remainder) := by
  rw [← source_of_mem_containers h, ← c.before_append_remainder]
  exact Text.cutBytes?_append ..

theorem cutBytes?_stop {source : Text} {c : Container} (h : c ∈ containers source) :
    cutBytes? c.stop source = some (c.before ++ opener ++ c.body ++ closer, c.after) := by
  rw [← source_of_mem_containers h]
  exact Text.cutBytes?_append ..

theorem slice?_span {source : Text} {c : Container} (h : c ∈ containers source) :
    slice? source c.start c.stop = some (opener ++ c.body ++ closer) := by
  have hsource := source_of_mem_containers h
  have hslice := Text.slice?_append c.before (opener ++ c.body ++ closer) c.after
  simp only [← List.append_assoc] at hslice
  rw [← hsource]
  exact hslice

/-- The bytes around a container stay as they are when it is replaced. -/
theorem substitute?_span {source : Text} {c : Container} (h : c ∈ containers source)
    (value : Text) : c.span.substitute? source value = some (c.substitute value) := by
  unfold Span.substitute? Container.span
  rw [cutBytes?_start h, Option.bind_eq_bind, Option.bind_some]
  dsimp only
  rw [cutBytes?_stop h]
  rfl

theorem length_le_start {before : Text} {ps : List Piece} {c : Container}
    (h : c ∈ containersBehind before ps) : before.utf8Length ≤ c.start := by
  obtain ⟨l, body, r, rfl, rfl⟩ := exists_of_mem_containersBehind h
  show _ ≤ Text.utf8Length (before ++ _)
  rw [Text.utf8Length_append]
  exact Nat.le_add_right _ _

/-- Containers end before the next ones start. -/
theorem pairwise_containersBehind (before : Text) (ps : List Piece) :
    (containersBehind before ps).Pairwise fun c d => c.stop ≤ d.start := by
  induction ps generalizing before with
  | nil => exact .nil
  | cons p ps ih =>
      cases p with
      | plain t => exact ih (before ++ t)
      | slot body =>
          refine .cons (fun d hd => ?_) (ih _)
          have hle := length_le_start hd
          unfold Container.stop
          simpa [Piece.text, Nat.add_assoc] using hle

/-- Cutting at the spans gives the pieces. -/
theorem partsFrom?_eq (before source : Text) :
    Span.partsFrom? (before ++ source) before.utf8Length
        ((containersBehind before (pieces source)).map Container.span) =
      some ((pieces source).map Piece.text) := by
  have hend : ∀ before source : Text, Span.partsFrom? (before ++ source) before.utf8Length [] =
      some [source] := by
    intro before source
    have hslice := Text.slice?_append before source []
    rw [List.append_nil] at hslice
    rw [Span.partsFrom?, hslice]
    rfl
  fun_induction pieces source generalizing before with
  | case1 source ho => exact hend before source
  | case2 source gap inner ho hc => exact hend before source
  | case3 source gap inner ho span rest hc ih =>
    have hsource : source = (innermost gap span).1 ++ (Piece.slot (innermost gap span).2).text ++
        rest := by
      rw [innermost_append_text, ← Text.append_of_cut? ho, ← Text.append_of_cut? hc]
      simp
    generalize (innermost gap span).1 = gap' at hsource ⊢
    generalize (innermost gap span).2 = body at hsource ⊢
    have hgap := Text.slice?_append before gap' ((Piece.slot body).text ++ rest)
    have hpart := Text.slice?_append (before ++ gap') (Piece.slot body).text rest
    have hparts := ih (before ++ gap' ++ (Piece.slot body).text)
    simp only [hsource, containersBehind, List.map_cons, Span.partsFrom?, Container.span,
      Container.start, Container.stop, Piece.text, ← List.append_assoc] at hgap hpart hparts ⊢
    rw [hgap, hpart, hparts]
    rfl

/-! ## Final texts -/

/-- A text has a container exactly if an opener stands in it and a closer behind the opener. -/
theorem not_isFinal_iff (source : Text) :
    ¬ isFinal source = true ↔
      ∃ i j, i + 2 ≤ j ∧ StandsAt source i opener ∧ StandsAt source j closer := by
  constructor
  · intro h
    obtain ⟨c, hc⟩ := exists_firstContainer? h
    have hsource := source_of_mem_containers (mem_containers_of_first hc)
    refine ⟨c.before.utf8Length, (c.before ++ opener ++ c.body).utf8Length, ?_,
      ⟨c.before, c.body ++ closer ++ c.after, ?_, rfl⟩,
      ⟨c.before ++ opener ++ c.body, c.after, hsource.symm, rfl⟩⟩
    · simp only [Text.utf8Length_append, show opener.utf8Length = 2 from rfl]
      exact Nat.le_add_right _ _
    · rw [← hsource]
      simp [Container.source]
  · rintro ⟨i, j, hle, ⟨x, y, hx, rfl⟩, ⟨x', y', hx', rfl⟩⟩
    have hlength : (x ++ opener).utf8Length ≤ Text.utf8Length x' := by
      rwa [Text.utf8Length_append]
    rw [hx, List.append_assoc x'] at hx'
    obtain ⟨z, rfl, rfl⟩ := Text.exists_append_of_utf8Length_le hx' hlength
    rw [hx, ← List.append_assoc, ← List.append_assoc]
    exact not_isFinal_append x z y'

/-- One pass finds the containers of a text. Their spans stand one behind the other; a text can be
cut at every one, and is an opener, a body without openers and closers, and a closer there. What
stands in the spans and between them makes up the text, and replacing a container is replacing these
bytes. A text has a container exactly if an opener and, behind its two bytes, a closer stand in
it. -/
theorem spans_exact (source : Text) :
    (containers source).map Container.span = spans source ∧
    ((spans source).Pairwise fun a b => a.stop ≤ b.start) ∧
    (∀ a ∈ spans source,
      (cutBytes? a.start source).isSome ∧ (cutBytes? a.stop source).isSome ∧
      slice? source a.start a.stop = some (opener ++ a.body ++ closer) ∧ IsBody a.body) ∧
    (Span.partsFrom? source 0 (spans source)).map List.flatten = some source ∧
    (∀ c ∈ containers source, ∀ value,
      c.span.substitute? source value = some (c.substitute value)) ∧
    (isFinal source = true ↔
      ¬ ∃ i j, i + 2 ≤ j ∧ StandsAt source i opener ∧ StandsAt source j closer) := by
  refine ⟨(spans_eq source).symm, ?_, ?_, ?_, fun c hc value => substitute?_span hc value, ?_⟩
  · rw [spans_eq, List.pairwise_map]
    exact pairwise_containersBehind [] (pieces source)
  · rw [spans_eq, List.forall_mem_map]
    intro c hc
    exact ⟨by rw [Container.span, cutBytes?_start hc]; rfl,
      by rw [Container.span, cutBytes?_stop hc]; rfl, slice?_span hc, isBody_of_mem_containers hc⟩
  · have hparts := partsFrom?_eq [] source
    rw [spans_eq, containers]
    rw [List.nil_append, Text.utf8Length_nil] at hparts
    rw [hparts, Option.map_some, ← List.flatMap_def, flatMap_text_pieces]
  · rw [← not_isFinal_iff, Decidable.not_not]

/-- The closer of the first container takes the dollar sign of what looks like a second opener. -/
example : spans "$\x7ba\x7d$\x7bb\x7d$ $\x7bä\x7d$".toList = [⟨0, 5, ['a']⟩, ⟨10, 16, ['ä']⟩] := by
  decide

end Template

end Fillout
