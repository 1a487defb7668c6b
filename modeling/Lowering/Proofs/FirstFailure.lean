import Lowering.Proofs.Endings
import Lowering.Proofs.Grammar

/-!
# Where loading fails

Loading comes to the documents inside a document in a fixed order, children before parents, and stops
at the first one that is wrong by itself. What it has not come to by then does not matter.

* `Document.steps`, `Document.sites`: the documents directly in a document, and all of them, with the
  paths that lead to them, in the order in which they are checked;
* `Document.firstSite?`: the first of these that is wrong by itself, with its path;
* `Document.SameBefore`: documents that differ only in what comes after the end of a path;
* `Document.load_fails_at_firstSite`: loading fails with what is wrong with that document, which is
  checked on entry or when everything inside it has loaded, and whatever comes after it can be
  replaced.
-/

namespace Lowering.Document

/-! ## Documents and the paths to them -/

/-- An element of a block's `nodes` and the step that leads to it. -/
def itemStep (x : Json × Nat) : Step × Json :=
  (.index x.2, x.1)

/-- The document in a field and the step that leads to it. -/
def fieldStep? (v : Json) (field : String) : Option (Step × Json) :=
  (child? v field).map fun w => (.field field, w)

/-- The documents directly in a document, each with the step that leads to it, in the order in which
they are loaded. -/
def steps (v : Json) : List (Step × Json) :=
  match kind? v with
  | none => []
  | some .block => (((v.member? "nodes").bind elements?).getD []).zipIdx.map itemStep
  | some kind => (childFields kind).filterMap (fieldStep? v)

theorem steps_of_block {v : Json} (h : kind? v = some .block) :
    steps v = (((v.member? "nodes").bind elements?).getD []).zipIdx.map itemStep := by
  rw [steps, h]

theorem steps_of_ne_block {v : Json} {kind : NodeKind} (h : kind? v = some kind)
    (hb : kind ≠ .block) : steps v = (childFields kind).filterMap (fieldStep? v) := by
  rw [steps, h]
  cases kind with
  | block => exact absurd rfl hb
  | _ => rfl

theorem map_snd_steps (v : Json) : (steps v).map Prod.snd = within v := by
  cases hk : kind? v with
  | none => rw [steps, within, hk]; rfl
  | some kind =>
    by_cases hb : kind = .block
    · subst hb
      rw [steps_of_block hk, within, hk, List.map_map]
      exact List.zipIdx_map_fst 0 _
    · rw [steps_of_ne_block hk hb, within_of_ne_block hk hb, List.map_filterMap]
      congr 1
      funext field
      rw [fieldStep?]
      cases child? v field <;> rfl

theorem mem_within_of_mem_steps {v : Json} {x : Step × Json} (h : x ∈ steps v) : x.2 ∈ within v := by
  rw [← map_snd_steps]
  exact List.mem_map_of_mem h

theorem nodup_childFields (kind : NodeKind) : (childFields kind).Nodup := by
  cases kind <;> decide

/-- No two of the documents directly in a document are reached by the same step. -/
theorem pairwise_steps (v : Json) : (steps v).Pairwise fun x y => x.1 ≠ y.1 := by
  cases hk : kind? v with
  | none =>
    rw [steps, hk]
    exact .nil
  | some kind =>
    by_cases hb : kind = .block
    · subst hb
      have hindices : ∀ items : List Json, items.zipIdx.Pairwise fun x y => x.2 ≠ y.2 := by
        intro items
        rw [← List.pairwise_map, List.zipIdx_map_snd]
        exact List.nodup_range'
      rw [steps_of_block hk, List.pairwise_map]
      exact (hindices _).imp fun hne h => hne (Step.index.inj h)
    · rw [steps_of_ne_block hk hb]
      refine List.Pairwise.filterMap _ ?_ (nodup_childFields kind)
      intro field other hne x hx y hy h
      obtain ⟨w, -, rfl⟩ := Option.map_eq_some_iff.mp hx
      obtain ⟨u, -, rfl⟩ := Option.map_eq_some_iff.mp hy
      exact hne (Step.field.inj h)

/-- The documents in a document with the paths that lead to them, in the order in which they are
checked: what is inside a document comes before it. -/
def sites (v : Json) : List (List Step × Json) :=
  (steps v).attach.flatMap (fun x => (sites x.1.2).map fun site => (x.1.1 :: site.1, site.2)) ++
    [([], v)]
termination_by sizeOf v
decreasing_by exact sizeOf_lt_of_mem_within (mem_within_of_mem_steps x.2)

theorem sites_eq (v : Json) :
    sites v = (steps v).flatMap (fun x => (sites x.2).map fun site => (x.1 :: site.1, site.2)) ++
      [([], v)] := by
  rw [sites, List.flatMap_subtype (g := fun x => (sites x.2).map fun site => (x.1 :: site.1, site.2))
    fun _ _ => rfl, List.unattach_attach]

theorem map_snd_sites (v : Json) : (sites v).map Prod.snd = order v := by
  induction v using induct with
  | step v ih =>
    have hinside : ∀ x ∈ steps v,
        ((sites x.2).map fun site => (x.1 :: site.1, site.2)).map Prod.snd = order x.2 := by
      intro x hx
      rw [List.map_map, ← ih x.2 (mem_within_of_mem_steps hx)]
      rfl
    rw [sites_eq, order_eq, ← map_snd_steps, List.map_append, List.map_flatMap, List.flatMap_map]
    congr 1
    rw [List.flatMap_def, List.map_congr_left hinside, ← List.flatMap_def]

/-! ## The first failure -/

/-- The first document, in the order of the checks, that is wrong by itself, with its path. -/
def firstSite? (v : Json) : Option (List Step × Json) :=
  (sites v).find? fun site => (ownFailure? site.2).isSome

theorem map_snd_firstSite? (v : Json) : (firstSite? v).map Prod.snd = firstFailing? v := by
  rw [firstSite?, firstFailing?, ← map_snd_sites, List.find?_map]
  rfl

theorem failure_load_eq_firstSite? (v : Json) :
    failureOf (load v) = (firstSite? v).bind fun site => ownFailure? site.2 := by
  rw [failure_load_eq, ← map_snd_firstSite?, Option.bind_map]
  rfl

theorem isSome_ownFailure?_of_firstSite? {v s : Json} {path : List Step}
    (h : firstSite? v = some (path, s)) : (ownFailure? s).isSome = true :=
  List.find?_some (p := fun site : List Step × Json => (ownFailure? site.2).isSome) h

theorem firstSite?_eq_none_iff {v : Json} : firstSite? v = none ↔ ∃ n, load v = .ok n := by
  rw [← failureOf_eq_none_iff, failure_load_eq_firstSite?]
  cases h : firstSite? v with
  | none => simp
  | some site =>
    have hfails := isSome_ownFailure?_of_firstSite? h
    simpa [Option.isSome_iff_ne_none] using hfails

/-- The first failure behind a step. -/
def firstBehind? (x : Step × Json) : Option (List Step × Json) :=
  (firstSite? x.2).map fun site => (x.1 :: site.1, site.2)

/-- The first failure of a document is the first one behind its steps, or else its own. -/
theorem firstSite?_eq (v : Json) :
    firstSite? v = ((steps v).findSome? firstBehind?).or
      (if (ownFailure? v).isSome then some ([], v) else none) := by
  rw [firstSite?, sites_eq, List.find?_append, List.find?_flatMap]
  simp only [List.find?_map, Function.comp_def, List.find?_singleton]
  rfl

/-- What is inside the first document that is wrong by itself has loaded. -/
theorem loads_within_of_firstSite? {v s : Json} {path : List Step}
    (h : firstSite? v = some (path, s)) : ∀ w ∈ within s, ∃ n, load w = .ok n := by
  induction v using induct generalizing path with
  | step v ih =>
    rw [firstSite?_eq, Option.or_eq_some_iff] at h
    -- It lies further inside, or it is this document and nothing inside it fails.
    obtain hinside | ⟨hnone, hown⟩ := h
    · obtain ⟨x, hx, hsite⟩ := List.exists_of_findSome?_eq_some hinside
      obtain ⟨inner, hinner, heq⟩ := Option.map_eq_some_iff.mp hsite
      obtain ⟨-, rfl⟩ := Prod.mk.inj heq
      exact ih x.2 (mem_within_of_mem_steps hx) hinner
    · obtain ⟨-, heq⟩ := Option.ite_none_right_eq_some.mp hown
      obtain ⟨-, rfl⟩ := Prod.mk.inj (Option.some.inj heq)
      intro w hw
      rw [← map_snd_steps] at hw
      obtain ⟨x, hx, rfl⟩ := List.mem_map.mp hw
      exact firstSite?_eq_none_iff.mp
        (Option.map_eq_none_iff.mp (List.findSome?_eq_none_iff.mp hnone x hx))

/-! ## What comes after the first failure -/

/-- Documents that differ only in what comes after the end of a path: at each step of the path both
are of the same kind and have the same documents in front of the step. -/
inductive SameBefore : List Step → Json → Json → Prop
  | here (v : Json) : SameBefore [] v v
  | field {v v' w w' : Json} {kind : NodeKind} {earlier later : List String} {name : String}
      {path : List Step} (hkind : kind? v = some kind) (hkind' : kind? v' = some kind)
      (hfields : childFields kind = earlier ++ name :: later)
      (hearlier : ∀ field ∈ earlier, child? v field = child? v' field)
      (hw : child? v name = some w) (hw' : child? v' name = some w')
      (hpath : SameBefore path w w') : SameBefore (.field name :: path) v v'
  | item {v v' w w' nodes nodes' : Json} {earlier later later' : List Json} {path : List Step}
      (hkind : kind? v = some .block) (hkind' : kind? v' = some .block)
      (hnodes : v.member? "nodes" = some nodes) (hnodes' : v'.member? "nodes" = some nodes')
      (hitems : elements? nodes = some (earlier ++ w :: later))
      (hitems' : elements? nodes' = some (earlier ++ w' :: later'))
      (hpath : SameBefore path w w') : SameBefore (.index earlier.length :: path) v v'

theorem steps_eq_of_field {v w : Json} {kind : NodeKind} {earlier later : List String} {name : String}
    (hkind : kind? v = some kind) (hfields : childFields kind = earlier ++ name :: later)
    (hw : child? v name = some w) :
    steps v = earlier.filterMap (fieldStep? v) ++
      (.field name, w) :: later.filterMap (fieldStep? v) := by
  have hb : kind ≠ .block := by
    rintro rfl
    simp [childFields] at hfields
  have hname : fieldStep? v name = some (.field name, w) := by rw [fieldStep?, hw]; rfl
  rw [steps_of_ne_block hkind hb, hfields, List.filterMap_append, List.filterMap_cons_some hname]

theorem steps_eq_of_item {v w nodes : Json} {earlier later : List Json}
    (hkind : kind? v = some .block) (hnodes : v.member? "nodes" = some nodes)
    (hitems : elements? nodes = some (earlier ++ w :: later)) :
    steps v = earlier.zipIdx.map itemStep ++
      (.index earlier.length, w) :: (later.zipIdx (earlier.length + 1)).map itemStep := by
  rw [steps_of_block hkind, hnodes, Option.bind_some, hitems, Option.getD_some, List.zipIdx_append,
    List.map_append, Nat.zero_add]
  rfl

/-- Behind the first step of the path lie two documents that differ only after the rest of it, and
before it nothing differs. -/
theorem SameBefore.exists_steps {step : Step} {path : List Step} {v v' : Json}
    (h : SameBefore (step :: path) v v') :
    ∃ earlier w later w' later', steps v = earlier ++ (step, w) :: later ∧
      steps v' = earlier ++ (step, w') :: later' ∧ SameBefore path w w' := by
  cases h with
  | field hkind hkind' hfields hearlier hw hw' hpath =>
    have hsame := List.filterMap_congr fun field hfield =>
      show fieldStep? v field = fieldStep? v' field by
        rw [fieldStep?, fieldStep?, hearlier field hfield]
    have hv := steps_eq_of_field hkind hfields hw
    rw [hsame] at hv
    exact ⟨_, _, _, _, _, hv, steps_eq_of_field hkind' hfields hw', hpath⟩
  | item hkind hkind' hnodes hnodes' hitems hitems' hpath =>
    exact ⟨_, _, _, _, _, steps_eq_of_item hkind hnodes hitems,
      steps_eq_of_item hkind' hnodes' hitems', hpath⟩

theorem findSome?_firstBehind?_ne {xs : List (Step × Json)} {step : Step}
    (h : ∀ x ∈ xs, x.1 ≠ step) (path : List Step) (s : Json) :
    xs.findSome? firstBehind? ≠ some (step :: path, s) := by
  intro hsome
  obtain ⟨x, hx, hsite⟩ := List.exists_of_findSome?_eq_some hsome
  obtain ⟨inner, -, heq⟩ := Option.map_eq_some_iff.mp hsite
  exact h x hx (List.cons.inj (Prod.mk.inj heq).1).1

/-- The first failure lies behind a step if there is none in front of the step. -/
theorem firstSite?_eq_cons_iff {v w s : Json} {step : Step} {path : List Step}
    {earlier later : List (Step × Json)} (h : steps v = earlier ++ (step, w) :: later) :
    firstSite? v = some (step :: path, s) ↔
      earlier.findSome? firstBehind? = none ∧ firstSite? w = some (path, s) := by
  have hsteps := pairwise_steps v
  rw [h, List.pairwise_append, List.pairwise_cons] at hsteps
  obtain ⟨-, ⟨hlater, -⟩, hearlier⟩ := hsteps
  -- The steps differ, so that a path with this step does not lie behind another one.
  have hbefore := findSome?_firstBehind?_ne (fun x hx => hearlier x hx _ List.mem_cons_self) path s
  have hafter := findSome?_firstBehind?_ne (fun x hx => (hlater x hx).symm) path s
  rw [firstSite?_eq, h, List.findSome?_append, List.findSome?_cons]
  cases he : earlier.findSome? firstBehind? with
  | some site =>
    rw [he] at hbefore
    simpa using hbefore
  | none =>
    cases hw : firstSite? w with
    | some site =>
      obtain ⟨path', s'⟩ := site
      simp [firstBehind?, hw]
    | none =>
      have hbehind : firstBehind? (step, w) = none := by rw [firstBehind?, hw]; rfl
      rw [hbehind]
      cases hl : later.findSome? firstBehind? with
      | some site =>
        rw [hl] at hafter
        simpa using hafter
      | none => simp

theorem SameBefore.firstSite?_eq {v v' s : Json} {path : List Step} (h : SameBefore path v v')
    (hs : firstSite? v = some (path, s)) : firstSite? v' = some (path, s) := by
  induction path generalizing v v' with
  | nil =>
    cases h
    exact hs
  | cons step path ih =>
    obtain ⟨earlier, w, later, w', later', hv, hv', hpath⟩ := h.exists_steps
    rw [firstSite?_eq_cons_iff hv] at hs
    rw [firstSite?_eq_cons_iff hv']
    exact ⟨hs.1, ih hpath hs.2⟩

/-! ## What fails on entry and what fails on leaving -/

theorem sites_of_within_nil {v : Json} (h : within v = []) : sites v = [([], v)] := by
  rw [← map_snd_steps, List.map_eq_nil_iff] at h
  rw [sites_eq, h]
  rfl

theorem within_of_typeName?_eq_none {v : Json} (h : typeName? v = none) : within v = [] := by
  rw [within, kind?, h]
  rfl

theorem unenumerable?_eq_some_iff {v nodes : Json} :
    unenumerable? v = some nodes ↔
      kind? v = some .block ∧ v.member? "nodes" = some nodes ∧ elements? nodes = none := by
  unfold unenumerable?
  split
  case h_1 found hkind hnodes =>
    rw [Option.ite_none_right_eq_some, Option.isNone_iff_eq_none, Option.some.injEq, hkind, hnodes]
    constructor
    · rintro ⟨hnone, rfl⟩
      exact ⟨rfl, rfl, hnone⟩
    · rintro ⟨-, hfound, hnone⟩
      obtain rfl := Option.some.inj hfound
      exact ⟨hnone, rfl⟩
  case h_2 hne =>
    constructor
    · intro h
      cases h
    · rintro ⟨hkind, hnodes, -⟩
      exact absurd hnodes (hne nodes hkind)

theorem within_of_unenumerable? {v nodes : Json} (h : unenumerable? v = some nodes) :
    within v = [] := by
  obtain ⟨hkind, hnodes, hnone⟩ := unenumerable?_eq_some_iff.mp h
  rw [within, hkind, hnodes, Option.bind_some, hnone]
  rfl

theorem ownFailure?_of_unenumerable? {v nodes : Json} (h : unenumerable? v = some nodes) :
    ownFailure? v = some (.notIterable nodes) := by
  obtain ⟨hkind, -, -⟩ := unenumerable?_eq_some_iff.mp h
  obtain ⟨name, hname, hblock⟩ := Option.bind_eq_some_iff.mp hkind
  simp only [ownFailure?, hname, hblock, h]

/-- What is not wrong on entry is wrong in its fields. -/
theorem ownFailure?_of_entered {v : Json} {name : Text} {e : LoadError}
    (hname : typeName? v = some name) (hnodes : unenumerable? v = none)
    (h : ownFailure? v = some e) :
    ∃ issues, e = .invalidOther issues ∨ ∃ kind, e = .invalid kind issues := by
  simp only [ownFailure?, hname, hnodes] at h
  cases hk : NodeKind.ofName? name with
  | none =>
    rw [hk] at h
    obtain ⟨issues, -, rfl⟩ := Option.map_eq_some_iff.mp h
    exact ⟨issues, .inl rfl⟩
  | some kind =>
    rw [hk] at h
    obtain ⟨issues, -, rfl⟩ := Option.map_eq_some_iff.mp h
    exact ⟨issues, .inr ⟨kind, rfl⟩⟩

theorem load_eq_error_iff (v : Json) (e : LoadError) :
    load v = .error e ↔ ∃ path s, firstSite? v = some (path, s) ∧ ownFailure? s = some e := by
  have hfailure : load v = .error e ↔ failureOf (load v) = some e := by
    cases load v <;> simp [failureOf]
  rw [hfailure, failure_load_eq_firstSite?, Option.bind_eq_some_iff, Prod.exists]

theorem SameBefore.load_eq {v v' s : Json} {path : List Step} (h : SameBefore path v v')
    (hs : firstSite? v = some (path, s)) : load v' = load v := by
  have hs' := h.firstSite?_eq hs
  obtain ⟨e, he⟩ := Option.isSome_iff_exists.mp (isSome_ownFailure?_of_firstSite? hs)
  rw [(load_eq_error_iff v e).mpr ⟨path, s, hs, he⟩, (load_eq_error_iff v' e).mpr ⟨path, s, hs', he⟩]

/-- Loading fails with what is wrong with the first document, in the order of the checks, that is
wrong by itself. Everything inside that document has loaded, and whatever comes after it can be
replaced. A value without the name of a kind, or a block whose `nodes` enumerate nothing, is wrong
before anything inside it is looked at; everything else is wrong in its fields. -/
theorem load_fails_at_firstSite (v : Json) :
    (∀ e, load v = .error e ↔
      ∃ path s, firstSite? v = some (path, s) ∧ ownFailure? s = some e) ∧
    (∀ path s, firstSite? v = some (path, s) →
      (∀ w ∈ within s, ∃ n, load w = .ok n) ∧
        ∀ v', SameBefore path v v' → firstSite? v' = some (path, s) ∧ load v' = load v) ∧
    (typeName? v = none → sites v = [([], v)] ∧ ownFailure? v = some (.notNode v)) ∧
    (∀ nodes, unenumerable? v = some nodes →
      sites v = [([], v)] ∧ ownFailure? v = some (.notIterable nodes)) ∧
    ∀ name e, typeName? v = some name → unenumerable? v = none → ownFailure? v = some e →
      ∃ issues, e = .invalidOther issues ∨ ∃ kind, e = .invalid kind issues := by
  refine ⟨load_eq_error_iff v, ?_, ?_, ?_, ?_⟩
  · intro path s hs
    exact ⟨loads_within_of_firstSite? hs, fun v' h => ⟨h.firstSite?_eq hs, h.load_eq hs⟩⟩
  · intro hname
    exact ⟨sites_of_within_nil (within_of_typeName?_eq_none hname), by rw [ownFailure?, hname]⟩
  · intro nodes hnodes
    exact ⟨sites_of_within_nil (within_of_unenumerable? hnodes),
      ownFailure?_of_unenumerable? hnodes⟩
  · intro name e hname hnodes he
    exact ownFailure?_of_entered hname hnodes he

/-- A tag that has no name. -/
def bareTag : Json :=
  .obj [("type", .str "Tag")]

/-- A block that begins with a tag that has no name. -/
def bareTagBlock (later : List Json) : Json :=
  .obj [("type", .str "Block"), ("nodes", .arr (bareTag :: later))]

/-- A conditional with that block as its consequent. -/
def bareTagConditional (members : Members) (later : List Json) : Json :=
  .obj (("type", .str "Conditional") :: ("consequent", bareTagBlock later) :: members)

/-- A text. -/
def plainText : Json :=
  .obj [("type", .str "Text"), ("val", .str "a")]

/-- A text and a conditional around the tag that has no name, in a block whose line is no number. The
conditional has no test, its alternate is no node, and neither is what follows the tag. -/
def manyFaults : Json :=
  .obj [("type", .str "Block"), ("line", .str "x"),
    ("nodes", .arr [plainText, bareTagConditional [("alternate", .int 3)] [.null]])]

/-- A text and a conditional around the tag that has no name, and nothing else that is wrong. -/
def oneFault : Json :=
  .obj [("type", .str "Block"),
    ("nodes", .arr [plainText, bareTagConditional [("test", .str "t")] [], plainText])]

/-- The tag fails first among many faults, so that the others can be taken away. -/
theorem load_manyFaults :
    load manyFaults = .error (.invalid .tag [⟨[.field "name"], .missing⟩]) ∧
      load oneFault = load manyFaults := by
  have hplain : firstSite? plainText = none := firstSite?_eq_none_iff.mpr ⟨_, rfl⟩
  have htag : firstSite? bareTag = some ([], bareTag) := by
    rw [firstSite?, sites_of_within_nil rfl]
    rfl
  have hfirst : firstSite? manyFaults =
      some ([.index 1, .field "consequent", .index 0], bareTag) := by
    refine (firstSite?_eq_cons_iff (show steps manyFaults = [(.index 0, plainText)] ++
      [(.index 1, bareTagConditional [("alternate", .int 3)] [.null])] from rfl)).mpr ⟨?_, ?_⟩
    · simp [firstBehind?, hplain]
    refine (firstSite?_eq_cons_iff (show steps (bareTagConditional _ _) = [] ++
      [(.field "consequent", bareTagBlock [.null]), (.field "alternate", .int 3)] from
        rfl)).mpr ⟨rfl, ?_⟩
    exact (firstSite?_eq_cons_iff (show steps (bareTagBlock _) = [] ++
      [(.index 0, bareTag), (.index 1, .null)] from rfl)).mpr ⟨rfl, htag⟩
  have hsame : SameBefore [.index 1, .field "consequent", .index 0] manyFaults oneFault := by
    refine @SameBefore.item _ _ _ _ _ _ [plainText] _ _ _ rfl rfl rfl rfl rfl rfl ?_
    refine @SameBefore.field _ _ _ _ _ [] _ _ _ rfl rfl rfl (by simp) rfl rfl ?_
    exact @SameBefore.item _ _ _ _ _ _ [] _ _ _ rfl rfl rfl rfl rfl rfl (.here bareTag)
  exact ⟨rfl, (((load_fails_at_firstSite manyFaults).2.1 _ _ hfirst).2 oneFault hsame).2⟩

end Lowering.Document
