import Templates.Proofs.Component.Expanded

/-!
A pass replaces the outermost custom tags of a page, all at once.

The renderer is called for these tags in order and for no others, and each of them gives way to the
fragment that is bound for its answer.
-/

namespace Templates.Expander

open Markup

/-- Some tags are dealt with by some calls. With the answers to these the document becomes another
one, whatever tags come behind. -/
structure Advances (expander : Expander) (tags : List NodeId) (calls : List Call)
    (answers : List Answer) (d : Document) (ids : List NodeId) (d' : Document) : Prop where
  run : ∀ {σ : Type} {renderer : ComponentRenderer σ} {before after : σ},
    Session.Runs (calls.mapM (respond renderer)) before answers after →
      ∀ rest produced : List NodeId,
        (expander.expandTags renderer (tags ++ rest) produced d).run before =
          (expander.expandTags renderer rest (produced ++ ids) d').run after

namespace Advances

variable {expander : Expander} {tags front back ids more : List NodeId}
  {calls early late : List Call} {answers first others : List Answer} {d between d' : Document}

/-- One tag with an answer is dealt with by its call. -/
theorem single {tag : NodeId} {call : Call} {answer : Answer} (attached : d.isAttached tag = true)
    (expands : ∀ {σ : Type} {renderer : ComponentRenderer σ} {before after : σ},
      Session.Runs (respond renderer call) before answer after →
        Session.Runs (expander.expandTag renderer tag d) before (ids, d') after) :
    Advances expander [tag] [call] [answer] d ids d' := by
  -- There is one call, and the pass goes on with the document that its answer leads to.
  constructor
  intro σ renderer before after runs rest produced
  obtain ⟨result, others, between, same, one, none⟩ := Session.runs_mapM_cons.mp runs
  obtain ⟨rfl, rfl⟩ := List.cons.inj same
  rw [List.mapM_nil, Session.runs_pure] at none
  rw [none.2, List.singleton_append, expandTags, if_pos attached, (expands one).run_bind]

/-- Tags below a node without a place are passed over without a call. -/
theorem detached {forest : Forest} (stands : forest.Stands d none)
    (noRoot : Document.root ∉ forest.ids) (within : tags ⊆ forest.ids) :
    Advances expander tags [] [] d [] d := by
  -- None of the tags is attached, and nothing changes that.
  constructor
  intro σ renderer before after runs rest produced
  rw [List.mapM_nil, Session.runs_pure] at runs
  rw [runs.2, List.append_nil]
  induction tags with
  | nil => rfl
  | cons tag tags ih =>
    have loose := Document.isAttached_eq_false stands noRoot (within List.mem_cons_self)
    rw [List.cons_append, expandTags, if_neg (by simp [loose])]
    exact ih fun _ listed => within (List.mem_cons_of_mem _ listed)

/-- Without tags nothing is done. -/
theorem nil (d : Document) : Advances expander [] [] [] d [] d := by
  have nothing : Forest.nil.Stands d none := trivial
  exact detached nothing (List.not_mem_nil) (List.nil_subset _)

/-- Tags are dealt with one after the other. -/
theorem append (count : first.length = early.length)
    (one : Advances expander front early first d ids between)
    (two : Advances expander back late others between more d') :
    Advances expander (front ++ back) (early ++ late) (first ++ others) d (ids ++ more) d' := by
  constructor
  intro σ renderer before after runs rest produced
  obtain ⟨first', others', state, same, runsEarly, runsLate⟩ := Session.runs_mapM_append.mp runs
  -- The answers to the first calls are the first answers.
  have length := Session.length_of_runs_mapM runsEarly
  obtain ⟨rfl, rfl⟩ := List.append_inj same (count.trans length.symm)
  rw [List.append_assoc, one.run runsEarly, two.run runsLate, List.append_assoc]

end Advances

variable {expander : Expander} {page : Document}

/-- The calls that a forest takes: one for each outermost custom tag. -/
def callsOf (expander : Expander) (forest : Forest) : List Call :=
  (forest.outermost expander.isCustom).map fun tag => expander.callOf tag.2

/-- A tag is dealt with by its call, together with the tags below it. -/
theorem Site.advances {d : Document} {parent tag : NodeId} {above front back : List NodeId}
    {e : Element} {below rest : Forest}
    (site : Site d parent above front (.cons tag (.element e) below rest) back)
    (stands : (Forest.cons tag (.element e) below rest).Stands page (some parent))
    (answer : Answer) :
    ∃ ids d' new,
      Advances expander ([tag] ++ below.marked expander.isCustom) [expander.callOf e] [answer] d ids
          d' ∧
        Replaced d d' parent tag front (rest.tops ++ back) e below.tops new ∧
        writeAll new.trees = boundMarkup page tag e answer := by
  obtain ⟨ids, d', new, expands, replaced, bound⟩ := site.expandTag expander answer
  refine ⟨ids ++ [], d', new, .append rfl (.single site.isAttached expands) ?_, replaced, ?_⟩
  · -- The tag has no place any more, so that those below it are passed over.
    refine .detached (site.gone replaced) ?_ ?_
    · obtain ⟨other, notBelow, _⟩ := not_mem_parts (site.apart site.leads.root_mem)
      simpa [Forest.ids] using ⟨other, notBelow⟩
    · intro x listed
      have within := below.marked_subset expander.isCustom listed
      exact List.mem_cons_of_mem _ (List.mem_append_left _ within)
  · -- Nothing below the tag has been changed yet, so that it has the children it had at first.
    obtain ⟨notBelow, _, distinctBelow, _⟩ := nodup_parts site.distinct
    rw [bound]
    refine boundMarkup_congr ⟨stands.1, stands.2.1, trivial⟩
      ⟨site.stands.1, site.stands.2.1, trivial⟩ ?_ answer
    simpa [Forest.ids] using ⟨notBelow, distinctBelow⟩

/-- The custom tags in a forest are replaced by the calls that it takes. -/
theorem Site.expandTags {d : Document} {parent : NodeId} {above front back : List NodeId}
    {forest : Forest} (site : Site d parent above front forest back)
    (stands : forest.Stands page (some parent)) (childless : forest.Childless)
    {answers : List Answer} (count : answers.length = (expander.callsOf forest).length) :
    ∃ ids d' new,
      Advances expander (forest.marked expander.isCustom) (expander.callsOf forest) answers d ids
          d' ∧
        Expanded expander page answers d d' parent front forest back new := by
  -- The trees are dealt with one after the other, each on the document that the last one has left.
  induction forest generalizing d parent above front back answers with
  | nil =>
    obtain rfl := List.eq_nil_of_length_eq_zero count
    exact ⟨[], d, .nil, .nil d, .nil d parent front back⟩
  | cons id content below rest ihBelow ihRest =>
    cases chosen : content.chosen? expander.isCustom with
    | some e =>
      -- A custom tag is replaced as a whole.
      obtain ⟨rfl, custom⟩ := Content.chosen?_eq_some.mp chosen
      have calls : expander.callsOf (.cons id (.element e) below rest) =
          expander.callOf e :: expander.callsOf rest := by
        simp [callsOf, Forest.outermost, chosen]
      have tags : (Forest.cons id (.element e) below rest).marked expander.isCustom =
          [id] ++ below.marked expander.isCustom ++ rest.marked expander.isCustom := by
        simp [Forest.marked, chosen]
      rw [calls] at count ⊢
      rw [tags]
      obtain ⟨answer, late, rfl⟩ := List.exists_cons_of_length_eq_add_one count
      obtain ⟨ids, d₁, first, one, replaced, bound⟩ := site.advances stands answer
      obtain ⟨more, d₂, others, two, behind⟩ :=
        ihRest (site.behindTag replaced) stands.2.2 childless.2.2 (Nat.succ.inj count)
      exact ⟨ids ++ more, d₂, first.append others, one.append rfl two,
        .tag site custom replaced bound behind⟩
    | none =>
      -- Any other node stays, and the tags below it come first.
      have split : expander.callsOf (.cons id content below rest) =
          expander.callsOf below ++ expander.callsOf rest := by
        simp [callsOf, Forest.outermost, chosen]
      have tags : (Forest.cons id content below rest).marked expander.isCustom =
          below.marked expander.isCustom ++ rest.marked expander.isCustom := by
        simp [Forest.marked, chosen]
      rw [split, List.length_append] at count
      rw [split, tags]
      obtain ⟨early, late, rfl, countEarly, countLate⟩ : ∃ early late : List Answer,
          answers = early ++ late ∧ early.length = (expander.callsOf below).length ∧
            late.length = (expander.callsOf rest).length := by
        refine ⟨_, _, (List.take_append_drop (expander.callsOf below).length answers).symm,
          List.length_take_of_le (by omega), ?_⟩
        rw [List.length_drop]
        omega
      obtain ⟨ids, d₁, first, one, inner⟩ := ihBelow site.inside stands.2.1 childless.2.1 countEarly
      obtain ⟨more, d₂, others, two, behind⟩ :=
        ihRest (inner.behindNode site) stands.2.2 childless.2.2 countLate
      refine ⟨ids ++ more, d₂, .cons id content first others, one.append countEarly two, ?_⟩
      refine .node site chosen childless ?_ inner behind
      rw [countEarly, callsOf, List.length_map]

/-- What the tag with a number gives way to: the markup that is bound for the answer to its call. -/
def replacement (page : Document) : List (NodeId × Element) → List Answer → NodeId → Text
  | (tag, e) :: tags, answer :: answers, id =>
    if id = tag then boundMarkup page tag e answer else replacement page tags answers id
  | _, _, _ => []

/-- The call of a custom tag has what stands behind the common beginning of its name. -/
theorem name_eq {e : Element} (custom : expander.isCustom e = true) :
    Text.asciiLower e.name = expander.start ++ (expander.callOf e).tag := by
  -- A custom tag begins as all of them do.
  obtain ⟨name, stripped⟩ := Option.isSome_iff_exists.mp custom
  have tag : (expander.callOf e).tag = name := by
    rw [callOf, stripped]
    rfl
  rw [tag]
  exact Text.eq_append_of_strip? stripped

/-- The custom tags of a document are those of its forest. -/
theorem findElements_eq {forest : Forest} (shows : page.Shows forest) :
    page.findElements expander.isCustom = forest.marked expander.isCustom := by
  rw [Document.findElements, shows.descendants, shows.stands.filter_ids]

/-- A document is still a tree when its tags have been replaced. -/
theorem Expanded.shows {page' : Document} {forest new : Forest} {answers : List Answer}
    (shows : page.Shows forest)
    (expanded : Expanded expander page answers page page' Document.root [] forest [] new) :
    page'.Shows new where
  linked := by
    have linked := expanded.linked (by simpa using shows.linked)
    simpa using linked
  stands := expanded.stands
  distinct := by
    have rooted : Document.root < page.size := Nat.lt_of_le_of_lt (Nat.zero_le _) shows.length_lt
    have other := expanded.outside rooted (List.nodup_cons.mp shows.distinct).1
    exact List.nodup_cons.mpr ⟨other, expanded.distinct⟩

end Templates.Expander
