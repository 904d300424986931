import GlimmerFormat.Proofs.Layout.Stack

/-!
# Flat chunks on the stack

A chunk becomes flat because it is measured to fit.  Its parts are flat for no other reason, and
the fills among them are measured again, with nothing behind them; still no part ever breaks.
The invariant that carries this through the steps of a layout is `Stage.FlatFirst`: flat chunks
stand above all broken ones, and measured in turn they fit between the column and the end of the
line.

* `Stage.flatFirst_of_reaches`: the invariant holds at every stage of a layout.
* `Stage.flat_chunk_laid_out_as_measured`: whenever a flat chunk is taken off the stack, the
  layout goes on to emit its flat text, without a newline, and nothing else before it comes to
  what stands below.
-/

namespace GlimmerFormat

open Document (spend spendAll)

namespace Stage

variable {page : Page} {column column' : Nat}

/-- Flat chunks stand above all broken ones, and measured in turn they fit on the line. -/
def FlatFirst (page : Page) (column : Nat) (stack : List Chunk) : Prop :=
  ∃ flats brokens r, stack = flats ++ brokens ∧ (∀ c ∈ flats, c.mode = .flat) ∧
    (∀ c ∈ brokens, c.mode = .broken) ∧
    spendAll .flat (flats.map Chunk.document) (page.width - column) = .leaves r

/-- The fills of the documents of chunks have a content behind each separator. -/
def OddFills (stack : List Chunk) : Prop :=
  ∀ c ∈ stack, c.document.HasOddFills

/-! ## What one step does to the fills -/

/-- What comes in the place of a fill has a content behind each separator. -/
lemma oddFills_of_take_fill {c : Chunk} {parts : List Document}
    (hodd : (Document.fill parts).HasOddFills) {below pushed : List Chunk}
    {log : List LayoutEvent} (hc : c.document = .fill parts)
    (h : c.take page below column = ⟨log, .ok (column', pushed)⟩) : OddFills pushed := by
  have hparts := Document.everywhereAll_iff.mp hodd.2
  rw [Chunk.take, hc] at h
  rcases parts with - | ⟨content, - | ⟨separator, - | ⟨next, parts⟩⟩⟩
  · cases h
    simp [OddFills]
  · obtain ⟨last, -, heq⟩ := Traced.bind_pure_eq_ok.mp h
    cases heq
    simpa [OddFills, Chunk.withMode] using hparts
  · obtain ⟨last, -, heq⟩ := Traced.bind_pure_eq_ok.mp h
    cases heq
    simpa [OddFills, Chunk.withMode] using hparts
  · obtain ⟨modes, -, heq⟩ := Traced.bind_pure_eq_ok.mp h
    cases heq
    have hrest : (Document.fill (next :: parts)).HasOddFills := by
      refine ⟨.inr ?_, hodd.2.2.2⟩
      have := hodd.1
      simp only [Document.EndsWithContent, List.length_cons, reduceCtorEq, false_or] at this ⊢
      omega
    simpa [OddFills, Chunk.withMode, Chunk.withDocument] using
      ⟨hparts content (by simp), hparts separator (by simp), hrest⟩

/-- What comes in the place of a chunk has a content behind each separator if the chunk has. -/
lemma oddFills_of_take {c : Chunk} (hodd : c.document.HasOddFills) {below pushed : List Chunk}
    {log : List LayoutEvent} (h : c.take page below column = ⟨log, .ok (column', pushed)⟩) :
    OddFills pushed := by
  obtain ⟨indentation, mode, d⟩ := c
  cases d with
  | empty | text s | hardline =>
    cases h
    simp [OddFills]
  | newline s =>
    cases mode <;>
    · cases h
      simp [OddFills]
  | stray => cases h
  | concat docs =>
    cases h
    simpa [OddFills, Chunk.withDocument] using Document.everywhereAll_iff.mp hodd.2
  | indent d | align amount d =>
    cases h
    simpa [OddFills] using hodd.2
  | group d =>
    cases mode with
    | flat =>
      cases h
      simpa [OddFills, Chunk.withDocument] using hodd.2
    | broken =>
      obtain ⟨mode, -, heq⟩ := Traced.bind_pure_eq_ok.mp h
      cases heq
      simpa [OddFills, Chunk.withMode] using hodd.2
  | fill parts => exact oddFills_of_take_fill hodd rfl h
  | ifBreak broken flat =>
    cases mode with
    | flat =>
      cases h
      simpa [OddFills, Chunk.withDocument] using hodd.2.2
    | broken =>
      cases h
      simpa [OddFills, Chunk.withDocument] using hodd.2.1

/-! ## What one step does to flat chunks -/

/-- What comes in the place of a flat fill that fits on the line is flat and takes as much of
the line. -/
lemma take_flat_fill {indentation : String} {parts : List Document}
    (hodd : (Document.fill parts).HasOddFills) {r : Int}
    (hr : spendAll .flat parts (page.width - column) = .leaves r) {below pushed : List Chunk}
    {log : List LayoutEvent}
    (h : Chunk.take page ⟨indentation, .flat, .fill parts⟩ below column =
      ⟨log, .ok (column', pushed)⟩) :
    (∀ e ∈ pushed, e.mode = .flat) ∧
      spendAll .flat (pushed.map Chunk.document) (page.width - column') = .leaves r := by
  rcases parts with - | ⟨content, - | ⟨separator, - | ⟨next, parts⟩⟩⟩
  · cases h
    exact ⟨by simp, hr⟩
  · obtain ⟨s, hs, -⟩ := Measure.andThen_eq_leaves.mp hr
    obtain ⟨last, hlast, heq⟩ := Traced.bind_pure_eq_ok.mp h
    rw [Page.lastMode_eq_flat hs] at hlast
    cases hlast
    cases heq
    exact ⟨by simp [Chunk.withMode], hr⟩
  · -- A fill of two parts has no content behind its separator.
    have hcontent := hodd.1
    simp [Document.EndsWithContent] at hcontent
  · obtain ⟨r₁, h₁, hr'⟩ := Measure.andThen_eq_leaves.mp hr
    obtain ⟨r₂, h₂, hr'⟩ := Measure.andThen_eq_leaves.mp hr'
    obtain ⟨r₃, h₃, -⟩ := Measure.andThen_eq_leaves.mp hr'
    have hpair : spendAll .flat [content, separator, next] (page.width - column) =
        .leaves r₃ := by
      simp [spendAll, h₁, h₂, h₃]
    obtain ⟨modes, hmodes, heq⟩ := Traced.bind_pure_eq_ok.mp h
    rw [Page.pairModes_eq_flat hpair] at hmodes
    cases hmodes
    cases heq
    have hroom : spend .flat (.fill (next :: parts)) r₂ = .leaves r := by
      rw [Document.spend_fill .flat (Document.spend_leaves_bounds h₂).1]
      exact hr'
    refine ⟨by simp [Chunk.withMode, Chunk.withDocument], ?_⟩
    simp [Chunk.withMode, Chunk.withDocument, spendAll, h₁, h₂, hroom]

/-- What comes in the place of a flat chunk that fits on the line is flat and takes as much of
the line. -/
lemma take_flat {indentation : String} {d : Document} (hodd : d.HasOddFills) {r : Int}
    (hr : spend .flat d (page.width - column) = .leaves r) {below pushed : List Chunk}
    {log : List LayoutEvent}
    (h : Chunk.take page ⟨indentation, .flat, d⟩ below column = ⟨log, .ok (column', pushed)⟩) :
    (∀ e ∈ pushed, e.mode = .flat) ∧
      spendAll .flat (pushed.map Chunk.document) (page.width - column') = .leaves r := by
  cases d with
  | empty =>
    cases h
    obtain ⟨-, hroom⟩ := Measure.ofRoom_eq_leaves.mp hr
    exact ⟨by simp, by simp [spendAll, hroom]⟩
  | text s | newline s =>
    cases h
    obtain ⟨-, hroom⟩ := Measure.ofRoom_eq_leaves.mp hr
    refine ⟨by simp, ?_⟩
    simp only [List.map_nil, spendAll, Measure.leaves.injEq]
    push_cast
    omega
  -- Neither of these leaves room when it is flat.
  | hardline | stray => cases hr
  | concat docs =>
    cases h
    obtain ⟨-, hr⟩ := Measure.ofRoom_andThen_eq_leaves.mp hr
    refine ⟨by simp [Chunk.withDocument], ?_⟩
    have hmap : (docs.map (Chunk.withDocument ⟨indentation, .flat, .concat docs⟩)).map
        Chunk.document = docs := by
      simp [Function.comp_def, Chunk.withDocument]
    rw [hmap]
    exact hr
  | indent d | align amount d | group d =>
    cases h
    obtain ⟨-, hr⟩ := Measure.ofRoom_andThen_eq_leaves.mp hr
    refine ⟨by simp [Chunk.withDocument], ?_⟩
    simp only [List.map_cons, List.map_nil, Chunk.withDocument]
    rw [spendAll, hr]
    rfl
  | ifBreak broken flat =>
    cases h
    obtain ⟨-, hr⟩ := Measure.ofRoom_andThen_eq_leaves.mp hr
    have hflat : spend .flat flat (page.width - column) = .leaves r := hr
    refine ⟨by simp [Chunk.withDocument], ?_⟩
    simp only [List.map_cons, List.map_nil, Chunk.withDocument]
    rw [spendAll, hflat]
    rfl
  | fill parts =>
    obtain ⟨-, hr⟩ := Measure.ofRoom_andThen_eq_leaves.mp hr
    exact take_flat_fill hodd hr h

/-! ## What one step does to broken chunks -/

/-- Chunks without flat ones among them. -/
lemma flatFirst_of_broken {stack : List Chunk} (h : ∀ c ∈ stack, c.mode = .broken) :
    FlatFirst page column stack :=
  ⟨[], stack, page.width - column, rfl, by simp, h, rfl⟩

/-- A flat chunk that fits by itself, above broken ones. -/
lemma flatFirst_of_allFit {indentation : String} {d : Document} {rest : List Pending}
    (hfit : Pending.allFit (⟨.flat, d⟩ :: rest) (page.width - column) = .ok true)
    {brokens : List Chunk} (hbrokens : ∀ c ∈ brokens, c.mode = .broken) :
    FlatFirst page column (⟨indentation, .flat, d⟩ :: brokens) := by
  obtain ⟨r, hr, -⟩ := Pending.allFit_flat_cons.mp hfit
  exact ⟨[⟨indentation, .flat, d⟩], brokens, r, rfl, by simp, hbrokens, by simp [spendAll, hr]⟩

/-- What comes in the place of a broken fill: flat parts only if they fit, above broken ones. -/
lemma take_broken_fill {indentation : String} {parts : List Document}
    (hodd : (Document.fill parts).HasOddFills) {below pushed : List Chunk}
    {log : List LayoutEvent}
    (h : Chunk.take page ⟨indentation, .broken, .fill parts⟩ below column =
      ⟨log, .ok (column', pushed)⟩) : FlatFirst page column' pushed := by
  rcases parts with - | ⟨content, - | ⟨separator, - | ⟨next, parts⟩⟩⟩
  · cases h
    exact flatFirst_of_broken (by simp)
  · obtain ⟨last, hlast, heq⟩ := Traced.bind_pure_eq_ok.mp h
    cases heq
    rcases Page.lastMode_eq_ok.mp hlast with ⟨-, ⟨hfit, rfl⟩ | ⟨-, rfl⟩⟩
    · exact flatFirst_of_allFit hfit (by simp)
    · exact flatFirst_of_broken (by simp [Chunk.withMode])
  · have hcontent := hodd.1
    simp [Document.EndsWithContent] at hcontent
  · obtain ⟨modes, hmodes, heq⟩ := Traced.bind_pure_eq_ok.mp h
    cases heq
    obtain ⟨-, contentFits, pairFits, hcontent, hpair, rfl⟩ := Page.pairModes_eq_ok.mp hmodes
    cases pairFits with
    | true =>
      obtain ⟨r, hr, -⟩ := Pending.allFit_flat_cons.mp hpair
      obtain ⟨-, hr⟩ := Measure.ofRoom_andThen_eq_leaves.mp hr
      obtain ⟨r₁, h₁, hr⟩ := Measure.andThen_eq_leaves.mp hr
      obtain ⟨r₂, h₂, -⟩ := Measure.andThen_eq_leaves.mp hr
      exact ⟨[⟨indentation, .flat, content⟩, ⟨indentation, .flat, separator⟩],
        [⟨indentation, .broken, .fill (next :: parts)⟩], r₂, rfl, by simp, by simp,
        by simp [spendAll, h₁, h₂]⟩
    | false =>
      cases contentFits with
      | true => exact flatFirst_of_allFit hcontent (by simp [Chunk.withMode, Chunk.withDocument])
      | false => exact flatFirst_of_broken (by simp [Chunk.withMode, Chunk.withDocument])

/-- What comes in the place of a broken chunk: flat chunks only if they fit, above broken
ones. -/
lemma take_broken {indentation : String} {d : Document} (hodd : d.HasOddFills)
    {below pushed : List Chunk} {log : List LayoutEvent}
    (h : Chunk.take page ⟨indentation, .broken, d⟩ below column = ⟨log, .ok (column', pushed)⟩) :
    FlatFirst page column' pushed := by
  cases d with
  | empty | text s | newline s | hardline | indent d | align amount d | ifBreak broken flat =>
    cases h
    exact flatFirst_of_broken (by simp [Chunk.withDocument])
  | stray => cases h
  | concat docs =>
    cases h
    exact flatFirst_of_broken (by simp [Chunk.withDocument])
  | group d =>
    obtain ⟨mode, hmode, heq⟩ := Traced.bind_pure_eq_ok.mp h
    cases heq
    rcases Page.groupMode_eq_ok.mp hmode with ⟨hfit, -, rfl⟩ | ⟨-, -, rfl⟩
    · exact flatFirst_of_allFit hfit (by simp)
    · exact flatFirst_of_broken (by simp [Chunk.withMode])
  | fill parts => exact take_broken_fill hodd h

/-! ## The invariant -/

/-- Broken chunks may stand below. -/
lemma FlatFirst.append {stack brokens : List Chunk} (h : FlatFirst page column stack)
    (hbrokens : ∀ c ∈ brokens, c.mode = .broken) : FlatFirst page column (stack ++ brokens) := by
  obtain ⟨flats, others, r, rfl, hflats, hothers, hr⟩ := h
  refine ⟨flats, others ++ brokens, r, List.append_assoc _ _ _, hflats, ?_, hr⟩
  intro c hc
  rcases List.mem_append.mp hc with hc | hc
  · exact hothers c hc
  · exact hbrokens c hc

/-- One step keeps the invariant. -/
theorem flatFirst_of_step {s t : Stage} (hstep : Step page s t)
    (hs : FlatFirst page s.column s.stack ∧ OddFills s.stack) :
    FlatFirst page t.column t.stack ∧ OddFills t.stack := by
  obtain @⟨column, column', log, log', c, below, pushed, htake⟩ := hstep
  obtain ⟨⟨flats, brokens, r, hstack, hflats, hbrokens, hr⟩, hodd⟩ := hs
  have hc : c.document.HasOddFills := hodd c (by simp)
  refine ⟨?_, ?_⟩
  · obtain ⟨indentation, mode, d⟩ := c
    -- The chunk that is taken is flat if there are flat ones at all.
    cases flats with
    | nil =>
      obtain rfl : _ :: below = brokens := hstack
      obtain rfl : mode = .broken := hbrokens _ List.mem_cons_self
      exact (take_broken hc htake).append fun e he => hbrokens e (by simp [he])
    | cons c flats =>
      obtain ⟨rfl, rfl⟩ := List.cons.inj hstack
      obtain rfl : mode = .flat := hflats _ List.mem_cons_self
      obtain ⟨s, hs, hr⟩ := Measure.andThen_eq_leaves.mp hr
      obtain ⟨hpushed, hspend⟩ := take_flat hc hs htake
      refine ⟨pushed ++ flats, brokens, r, (List.append_assoc _ _ _).symm, ?_, hbrokens, ?_⟩
      · intro e he
        rcases List.mem_append.mp he with he | he
        · exact hpushed e he
        · exact hflats e (by simp [he])
      · rw [List.map_append, Document.spendAll_append, hspend]
        exact hr
  · intro e he
    rcases List.mem_append.mp he with he | he
    · exact oddFills_of_take hc htake e he
    · exact hodd e (by simp [he])

/-- At every stage of a layout the flat chunks stand above all broken ones and fit on the line. -/
theorem flatFirst_of_reaches {d : Document} (hd : d.HasOddFills) {s : Stage}
    (h : Reaches page (start d) s) : FlatFirst page s.column s.stack ∧ OddFills s.stack := by
  induction h with
  | refl =>
    refine ⟨flatFirst_of_broken (by simp [start]), ?_⟩
    simpa [OddFills, start] using hd
  | tail _ hstep ih => exact flatFirst_of_step hstep ih

/-! ## Measuring agrees with laying out -/

/-- Whenever a flat chunk is taken off the stack in a layout, the layout emits its flat text and
nothing else before it comes to what stands below: it is no hardline, no newline is emitted for
anything inside, and the column advances by the length of the text. -/
theorem flat_chunk_laid_out_as_measured {d : Document} (hd : d.HasOddFills) {s : Stage}
    (hs : Reaches page (start d) s) {c : Chunk} {below : List Chunk} (hstack : s.stack = c :: below)
    (hflat : c.mode = .flat) :
    c.document ≠ .hardline ∧
      ∃ segments, (∀ t ∈ segments, t.isNewline = false) ∧
        Segment.joined segments = c.document.flatText ∧
        Reaches page s
          ⟨s.column + c.document.flatText.length, s.log ++ segments.map .emitted, below⟩ := by
  obtain ⟨⟨flats, brokens, r, hsplit, hflats, hbrokens, hr⟩, hodd⟩ := flatFirst_of_reaches hd hs
  obtain ⟨column, log, stack⟩ := s
  obtain rfl : stack = c :: below := hstack
  -- A flat chunk is not among the broken ones, so it is measured with the flat ones.
  cases flats with
  | nil =>
    obtain rfl : c :: below = brokens := hsplit
    have hbroken : c.mode = .broken := hbrokens c (by simp)
    rw [hflat] at hbroken
    cases hbroken
  | cons e flats =>
    obtain ⟨rfl, -⟩ := List.cons.inj hsplit
    obtain ⟨t, ht, -⟩ := Measure.andThen_eq_leaves.mp hr
    have hlay : c.document.lay page c.indentation .flat (below.map Chunk.pending) column =
        ⟨c.document.flatPieces.map .emitted, .ok (column + c.document.flatText.length)⟩ :=
      Document.lay_flat (hodd c (by simp)) ht
    refine ⟨?_, c.document.flatPieces, fun _ => Document.isNewline_of_mem_flatPieces, rfl, ?_⟩
    · intro hhardline
      rw [hhardline] at ht
      cases ht
    · have hreach := followsLay c.document log (Pending.Alike.refl _) hlay
      rw [← hflat] at hreach
      exact hreach

/-- A group around a fill, on a page wide enough for both. -/
theorem fill_in_group_laid_out_as_measured :
    ∃ segments, (∀ t ∈ segments, t.isNewline = false) ∧ Segment.joined segments = "a b c" ∧
      Reaches ⟨6, "  ", 8⟩
        ⟨0, [], [⟨"", .flat, .concat [.text "a", .line, .fill [.text "b", .line, .text "c"]]⟩]⟩
        ⟨5, segments.map .emitted, []⟩ := by
  have hodd : (Document.group (.concat [.text "a", .line,
      .fill [.text "b", .line, .text "c"]])).HasOddFills := by
    simp [Document.HasOddFills, Document.Everywhere, Document.EverywhereAll,
      Document.EndsWithContent, Document.line]
  have htake : Chunk.take ⟨6, "  ", 8⟩ ⟨"", .broken,
        .group (.concat [.text "a", .line, .fill [.text "b", .line, .text "c"]])⟩ [] 0 =
      ⟨[], .ok (0, [⟨"", .flat, .concat [.text "a", .line,
        .fill [.text "b", .line, .text "c"]]⟩])⟩ := rfl
  have hreach := reaches_replaced [] htake
  exact (flat_chunk_laid_out_as_measured hodd hreach rfl rfl).2

end Stage

end GlimmerFormat
