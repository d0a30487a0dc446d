import RefCheck.Proofs.Model.Embedding

/-!
# Declarations of the project itself

Whether a declaration belongs to the project is decided by its name, by that of its owner, and by the path of
its source. `isOwn_eq_ok_true_iff` says when it does, and `exists_isOwn_iff` says when there is an answer at
all: the path has to be a text, and then it can be cut into segments.

A signature mostly has no source and takes that of its owner, so it belongs to the project if its owner does.
What it has of its own may still set it apart: a name that marks types written out in place, a source in a
dependency, or a kind that asks no owner for its source. `isOwn_iff_of_owner` says that nothing else can.
-/

namespace RefCheck.Model

variable {m : Model} {excluded : Excluded} {h s : Handle}

/-! ## Sources that are kept -/

theorem sourceKept_eq_ok_true_iff {source : Source} :
    sourceKept excluded source = .ok true ↔
      ∃ path segments, source.path = .str path ∧ excluded = .ok segments ∧
        ∀ e ∈ segments, e ∉ pathSegments path := by
  rw [sourceKept]
  cases hpath : source.path with
  | str path =>
    cases excluded with
    | error f => exact iff_of_false (fun h ↦ by cases h) (by simp)
    | ok segments =>
      show Except.ok (!segments.any fun e ↦ (pathSegments path).contains e) = Except.ok true ↔ _
      simp
  | _ => exact iff_of_false (fun h ↦ by cases h) (by simp)

/-- Whether a source is kept can be told if its path is a text. -/
theorem exists_sourceKept_iff {segments : List String} {source : Source} :
    (∃ kept, sourceKept (.ok segments) source = .ok kept) ↔ ∃ path, source.path = .str path := by
  rw [sourceKept]
  cases hpath : source.path with
  | str path => exact iff_of_true ⟨_, rfl⟩ ⟨path, rfl⟩
  | _ => exact iff_of_false (fun ⟨_, h⟩ ↦ by cases h) (by simp)

/-! ## Declarations that belong to the project -/

theorem isOwn_eq_ok_true_iff : m.isOwn excluded h = .ok true ↔
    m.isAnonymous h = false ∧ m.isLost h = false ∧
      ∃ source, m.sourceOf? h = some source ∧ sourceKept excluded source = .ok true := by
  rw [isOwn]
  cases m.isAnonymous h with
  | true => simp
  | false =>
    cases m.isLost h with
    | true => simp
    | false => cases m.sourceOf? h <;> simp

/-- Whether a declaration belongs to the project can be told, unless its path is no text. -/
theorem exists_isOwn_iff {segments : List String} (hlost : m.isLost h = false) :
    (∃ own, m.isOwn (.ok segments) h = .ok own) ↔
      (m.isAnonymous h = false → ∀ source, m.sourceOf? h = some source →
        ∃ path, source.path = .str path) := by
  rw [isOwn, hlost]
  cases m.isAnonymous h with
  | true => simp
  | false =>
    cases m.sourceOf? h with
    | none => simp
    | some source =>
      show (∃ own, sourceKept (.ok segments) source = .ok own) ↔ _
      rw [exists_sourceKept_iff]
      simp

/-! ## The source of the owner -/

theorem enclosingTo_prefix (n : Nat) (h : Handle) : m.enclosingTo n h <+: m.enclosingTo (n + 1) h := by
  induction n generalizing h with
  | zero => exact List.nil_prefix
  | succ n ih =>
    rw [enclosingTo, enclosingTo, List.prefix_cons_inj]
    cases (m.get h).parent with
    | none => exact List.prefix_rfl
    | some p => exact ih p

/-- A way up that passes a declaration which asks no owner has found its source there, if ever. -/
theorem sourceAlong_append {hs ks : List Handle} (hstop : hs.all m.asksOwner = false) :
    m.sourceAlong (hs ++ ks) = m.sourceAlong hs := by
  induction hs with
  | nil => cases hstop
  | cons h hs ih =>
    rw [List.all_cons, asksOwner] at hstop
    rw [List.cons_append, sourceAlong, sourceAlong]
    cases hsources : (m.get h).sources with
    | cons source sources => rfl
    | nil =>
      rw [hsources] at hstop
      dsimp only
      split
      · next hkind =>
        rw [hkind] at hstop
        exact ih hstop
      · rfl

theorem enclosing_of_parent (howner : (m.get s).parent = some h) :
    m.enclosing s = s :: m.enclosingTo m.size h := by
  rw [enclosing, enclosingTo, howner]

/-- What asks its owner for a source is where its owner is. -/
theorem sourceOf?_of_asksOwner (howner : (m.get s).parent = some h) (hasks : m.asksOwner s = true)
    (hlost : m.isLost s = false) : m.sourceOf? s = m.sourceOf? h := by
  have hup := enclosing_of_parent howner
  have hpass : m.sourceOf? s = m.sourceAlong (m.enclosingTo m.size h) := by
    rw [asksOwner, Bool.and_eq_true, List.isEmpty_iff] at hasks
    rw [sourceOf?, hup, sourceAlong, hasks.1]
    exact if_pos hasks.2
  rw [hpass, sourceOf?, enclosing]
  by_cases hshort : (m.enclosingTo m.size h).length < m.size
  · rw [IsTree.enclosingTo_eq_of_length_lt hshort (Nat.le_succ _)]
  · -- the way up is longer than the model, so it is no dead end only if somebody on it asks no owner
    have hlong : decide (m.size < (m.enclosing s).length) = true := by
      rw [hup, List.length_cons, decide_eq_true_iff]
      omega
    rw [isLost, hlong, Bool.true_and, hup, List.all_cons, hasks, Bool.true_and] at hlost
    obtain ⟨ks, hks⟩ := m.enclosingTo_prefix m.size h
    rw [← hks, sourceAlong_append hlost]

/-- Nothing that a declaration has of its own keeps it out of the project. -/
structure FollowsOwner (m : Model) (excluded : Excluded) (s : Handle) : Prop where
  /-- It is not named like a type that is written out in place. -/
  name_ne : (m.get s).name ≠ anonymousName
  /-- Without a source it asks its owner for one. -/
  asks : (m.get s).sources = [] → (m.get s).kind.meets ownerSourced = true
  /-- Its source, if it has one, is not left out. -/
  kept : ∀ source ∈ (m.get s).sources.head?, sourceKept excluded source = .ok true

/-- **What belongs to the project with its owner.** A declaration whose owner belongs to the project does so
too exactly if nothing that it has of its own keeps it out. -/
theorem isOwn_iff_of_owner (hown : m.isOwn excluded h = .ok true)
    (howner : (m.get s).parent = some h) (hlost : m.isLost s = false) :
    m.isOwn excluded s = .ok true ↔ m.FollowsOwner excluded s := by
  obtain ⟨hanonymous, -, source, hsource, hkept⟩ := isOwn_eq_ok_true_iff.mp hown
  have hnamed : m.isAnonymous s = false ↔ (m.get s).name ≠ anonymousName := by
    have hname : ((m.get h).name == anonymousName) = false := (Bool.or_eq_false_iff.mp hanonymous).1
    rw [isAnonymous, howner]
    dsimp only
    rw [hname, Bool.or_false, beq_eq_false_iff_ne]
  have hup := enclosing_of_parent howner
  rw [isOwn_eq_ok_true_iff, hnamed, and_iff_right hlost]
  cases hsources : (m.get s).sources with
  | cons first rest =>
    have hfirst : m.sourceOf? s = some first := by rw [sourceOf?, hup, sourceAlong, hsources]
    rw [hfirst]
    constructor
    · rintro ⟨hne, _, hsome, hfirstKept⟩
      cases hsome
      refine ⟨hne, fun hnil ↦ ?_, fun source hsource ↦ ?_⟩
      · rw [hsources] at hnil
        cases hnil
      · rw [hsources] at hsource
        cases hsource
        exact hfirstKept
    · intro hfollows
      exact ⟨hfollows.name_ne, first, rfl, hfollows.kept first (by rw [hsources]; rfl)⟩
  | nil =>
    have hnone : ∀ source ∈ (m.get s).sources.head?, sourceKept excluded source = .ok true := by
      rw [hsources]
      exact fun source hsource ↦ by cases hsource
    by_cases hkind : (m.get s).kind.meets ownerSourced = true
    · have hasks : m.asksOwner s = true := by rw [asksOwner, hsources, hkind]; rfl
      rw [sourceOf?_of_asksOwner howner hasks hlost]
      exact ⟨fun hboth ↦ ⟨hboth.1, fun _ ↦ hkind, hnone⟩,
        fun hfollows ↦ ⟨hfollows.name_ne, source, hsource, hkept⟩⟩
    · have hno : m.sourceOf? s = none := by
        rw [sourceOf?, hup, sourceAlong, hsources]
        exact if_neg hkind
      rw [hno]
      refine iff_of_false ?_ fun hfollows ↦ hkind (hfollows.asks hsources)
      rintro ⟨-, _, hsome, -⟩
      cases hsome

end RefCheck.Model
