import Mathlib.Data.List.Forall2
import RefCheck.Proofs.Settings.Paths
import RefCheck.Settings.Store

/-!
# Laying mappings at places over one another

What is at a place can be read as data: `Store.Reads`. Two mappings at places that read as data are laid over one
another in finitely many steps, and what comes of it reads as the one data laid over the other. Nothing that was at a
place before is written to, so both read as before. `Store.overlay_decides` says this of nested mappings, together
with the rule by which each path is decided.

While a copy is written to, nothing that is held anywhere leads to it. The proof says so with a *view*, in which the
copy is hidden: what is read in a view does not depend on what is at hidden places.
-/

namespace RefCheck.Yaml

open Data

/-- A new place is the first one after those that there are. -/
theorem getElem?_append_length {α : Type} (as : List α) (a : α) (more : List α) :
    (as ++ a :: more)[as.length]? = some a := by
  rw [List.getElem?_append_right (Nat.le_refl _), Nat.sub_self, List.getElem?_cons_zero]

/-- The mappings at places, some of which may be hidden. -/
abbrev View := List (Option (List (Scalar × Held)))

namespace View

variable {view view' : View} {s : Store} {place : Nat} {key : Scalar} {h : Held} {d : Data}
  {held : List (Scalar × Held)} {entries : List (Scalar × Data)}

mutual

/-- In a view something that is held reads as data. -/
inductive Reads (view : View) : Held → Data → Prop
  /-- What is no mapping reads as itself. -/
  | data {d : Data} (hd : d.isMapping = false) : Reads view (.data d) d
  /-- A mapping at a place reads as what it holds under its keys. -/
  | mapping {place : Nat} {held : List (Scalar × Held)} {entries : List (Scalar × Data)}
      (hplace : view[place]? = some (some held)) (heach : ReadEach view held entries) :
      Reads view (.mapping place) (.map entries)

/-- What is held under keys, one by one, reads as data under the same keys. -/
inductive ReadEach (view : View) : List (Scalar × Held) → List (Scalar × Data) → Prop
  | nil : ReadEach view [] []
  | cons {key : Scalar} {h : Held} {d : Data} {held : List (Scalar × Held)} {entries : List (Scalar × Data)}
      (hfirst : Reads view h d) (hrest : ReadEach view held entries) :
      ReadEach view ((key, h) :: held) ((key, d) :: entries)

end

/-! ## Seeing more -/

/-- All that is seen in one view is seen in the other. -/
def Within (view view' : View) : Prop :=
  ∀ (place : Nat) held, view[place]? = some (some held) → view'[place]? = some (some held)

theorem Within.refl (view : View) : view.Within view := fun _ _ h ↦ h

theorem Within.trans {view'' : View} (h : view.Within view') (h' : view'.Within view'') : view.Within view'' :=
  fun place held hplace ↦ h' place held (h place held hplace)

mutual

theorem Reads.mono (hle : view.Within view') {h : Held} {d : Data} : view.Reads h d → view'.Reads h d
  | .data hd => .data hd
  | .mapping hplace heach => .mapping (hle _ _ hplace) (heach.mono hle)

theorem ReadEach.mono (hle : view.Within view') {held : List (Scalar × Held)}
    {entries : List (Scalar × Data)} : view.ReadEach held entries → view'.ReadEach held entries
  | .nil => .nil
  | .cons hfirst hrest => .cons (hfirst.mono hle) (hrest.mono hle)

end

theorem within_append (view more : View) : view.Within (view ++ more) := by
  intro place held h
  obtain ⟨hlt, -⟩ := List.getElem?_eq_some_iff.mp h
  rwa [List.getElem?_append_left hlt]

/-- What is hidden is not seen in the other way either, so all that is seen stays. -/
theorem within_hidden (view more : View) (held : List (Scalar × Held)) :
    View.Within (view ++ none :: more) (view ++ some held :: more) := by
  intro place held' h
  by_cases hlt : place < view.length
  · rw [List.getElem?_append_left hlt] at h ⊢
    exact h
  · rw [List.getElem?_append_right (Nat.not_lt.mp hlt)] at h ⊢
    cases hrest : place - view.length with
    | zero =>
      rw [hrest] at h
      cases h
    | succ n =>
      rw [hrest] at h
      exact h

/-! ## Entries -/

/-- Under each key the same is found. -/
theorem ReadEach.lookup (heach : view.ReadEach held entries) (key : Scalar) :
    (Data.lookup key held = none ∧ Data.lookup key entries = none) ∨
      ∃ h d, Data.lookup key held = some h ∧ Data.lookup key entries = some d ∧ view.Reads h d := by
  induction held generalizing entries with
  | nil =>
    cases heach
    exact .inl ⟨rfl, rfl⟩
  | cons e held ih =>
    cases heach with
    | @cons k _ _ _ _ hfirst hrest =>
      rw [Data.lookup, Data.lookup]
      by_cases hk : k.sameKey key = true
      · rw [if_pos hk, if_pos hk]
        exact .inr ⟨_, _, rfl, rfl, hfirst⟩
      · rw [if_neg hk, if_neg hk]
        exact ih hrest

/-- The same is put under a key. -/
theorem ReadEach.put (heach : view.ReadEach held entries) (hread : view.Reads h d) (key : Scalar) :
    view.ReadEach (Data.put key h held) (Data.put key d entries) := by
  induction held generalizing entries with
  | nil =>
    cases heach
    exact .cons hread .nil
  | cons e held ih =>
    cases heach with
    | @cons k _ _ _ _ hfirst hrest =>
      rw [Data.put, Data.put]
      by_cases hk : k.sameKey key = true
      · rw [if_pos hk, if_pos hk]
        exact .cons hread hrest
      · rw [if_neg hk, if_neg hk]
        exact .cons hfirst (ih hrest)

theorem Reads.exists_entries (hread : view.Reads h d) (hd : d.isMapping = true) : ∃ entries, d = map entries := by
  cases hread with
  | data hplain => exact absurd hd (Bool.eq_false_iff.mp hplain)
  | mapping hplace heach => exact ⟨_, rfl⟩

/-! ## Laying over -/

/-- The view shows mappings of the store, as many as there are. -/
def Shows (view : View) (s : Store) : Prop :=
  List.Forall₂ (fun shown held ↦ ∀ x, shown = some x → x = held) view s

theorem Shows.getElem? (hshows : view.Shows s) (hplace : view[place]? = some (some held)) :
    s[place]? = some held := by
  induction hshows generalizing place with
  | nil => cases hplace
  | cons hfirst _ ih =>
    cases place with
    | zero => exact congrArg some (hfirst held (Option.some.inj hplace)).symm
    | succ place => exact ih hplace

theorem shows_some (s : Store) : View.Shows (s.map some) s :=
  List.forall₂_map_left_iff.mpr (List.forall₂_same.mpr fun _ _ _ h ↦ (Option.some.inj h).symm)

/-- A new mapping may be hidden. -/
theorem Shows.hide (hshows : view.Shows s) (known : List (Scalar × Held)) (more : Store) :
    View.Shows (view ++ none :: more.map some) (s ++ known :: more) :=
  List.rel_append hshows (.cons (fun _ h ↦ by cases h) (shows_some more))

end View

namespace Store

variable {s : Store} {place : Nat} {key : Scalar} {value : Held} {known rest : List (Scalar × Held)}

/-- What is written to one mapping changes no other one. -/
theorem write_append (s more : Store) (known : List (Scalar × Held)) (key : Scalar) (value : Held) :
    write (s ++ known :: more) s.length key value = s ++ Data.put key value known :: more := by
  induction s with
  | nil => rfl
  | cons first s ih =>
    exact congrArg (first :: ·) ih

/-- Where one of the two is no mapping, the upper one is written. -/
theorem overlayEntries_of_plain (hknown : s[place]? = some known)
    (hplain : ∀ own upper, Data.lookup key known = some (.mapping own) → value ≠ .mapping upper) :
    s.overlayEntries place ((key, value) :: rest) = (s.write place key value).overlayEntries place rest := by
  rw [overlayEntries, hknown]
  dsimp only [Option.bind_eq_bind, Option.bind_some]
  split
  · next own upper hown => exact absurd rfl (hplain own upper hown)
  · rfl

/-- Of two mappings, what comes of laying one over the other is written. -/
theorem overlayEntries_of_mappings {own upper outcome : Nat} {s' : Store} (hknown : s[place]? = some known)
    (hown : Data.lookup key known = some (.mapping own)) (hrun : s.overlay own upper = some (s', outcome)) :
    s.overlayEntries place ((key, .mapping upper) :: rest)
      = (s'.write place key (.mapping outcome)).overlayEntries place rest := by
  rw [overlayEntries, hknown]
  dsimp only [Option.bind_eq_bind, Option.bind_some]
  rw [hown]
  dsimp only
  rw [hrun]
  rfl

end Store

namespace View

variable {view view' : View} {s : Store} {h : Held}

/-- If what is held is a mapping, it can be laid over others, wherever all that is seen here is seen: some mappings
are added, and what comes of it, at the first new place, reads as the data laid over the other data. -/
def LaysOver (view : View) (h : Held) (d : Data) : Prop :=
  ∀ (view' : View) (s : Store) (base : Nat) (own : List (Scalar × Data)) (upper : Nat), view.Within view' →
    view'.Shows s → view'.Reads (.mapping base) (map own) → h = .mapping upper →
    ∃ more, s.overlay base upper = some (s ++ more, s.length) ∧
      View.Reads (view' ++ more.map some) (.mapping s.length) (Data.overlay (map own) d)

/-- An entry is laid over those of a hidden copy. -/
theorem LaysOver.exists_step {d : Data} (hlays : view.LaysOver h d) (hread : view.Reads h d)
    {known : List (Scalar × Held)} {own : List (Scalar × Data)} {more : Store} (hshows : view.Shows s)
    (hknown : View.ReadEach (view ++ none :: more.map some) known own) (key : Scalar)
    (rest : List (Scalar × Held)) :
    ∃ value new, Store.overlayEntries (s ++ known :: more) s.length ((key, h) :: rest)
        = Store.overlayEntries (s ++ Data.put key value known :: (more ++ new)) s.length rest ∧
      View.Reads (view ++ none :: (more ++ new).map some) value
        ((Data.lookup key own).elim d (Data.overlay · d)) := by
  have hplace : (s ++ known :: more)[s.length]? = some known := getElem?_append_length s known more
  -- what is written as it is needs no new mappings
  have hplain : (∀ own upper, Data.lookup key known = some (.mapping own) → h ≠ .mapping upper) →
      (Data.lookup key own).elim d (Data.overlay · d) = d → ∃ value new,
        Store.overlayEntries (s ++ known :: more) s.length ((key, h) :: rest)
          = Store.overlayEntries (s ++ Data.put key value known :: (more ++ new)) s.length rest ∧
        View.Reads (view ++ none :: (more ++ new).map some) value
          ((Data.lookup key own).elim d (Data.overlay · d)) := by
    intro hplain hsame
    refine ⟨h, [], ?_, ?_⟩
    · rw [Store.overlayEntries_of_plain hplace hplain, Store.write_append, List.append_nil]
    · rw [hsame]
      exact hread.mono (within_append _ _)
  rcases hknown.lookup key with ⟨hnone, hnone'⟩ | ⟨h', w, hh', hw, hread'⟩
  · refine hplain (fun own upper hown ↦ ?_) (by rw [hnone']; rfl)
    cases hnone.symm.trans hown
  · rw [hw, Option.elim_some] at hplain ⊢
    cases hread' with
    | data hbase =>
      refine hplain (fun own upper hown ↦ ?_) (overlay_of_base hbase hread.exists_entries)
      cases hh'.symm.trans hown
    | @mapping base _ lower hbase heach =>
      cases hread with
      | data hupper => exact hplain (fun own upper _ ↦ by rintro ⟨⟩) (overlay_of_upper hupper)
      | @mapping upper _ entries hupper heach' =>
        obtain ⟨new, hrun, hnew⟩ := hlays _ _ base lower upper (within_append _ _) (hshows.hide known more)
          (.mapping hbase heach) rfl
        refine ⟨.mapping (s ++ known :: more).length, new, ?_, ?_⟩
        · rw [Store.overlayEntries_of_mappings hplace hh' hrun, List.append_assoc, List.cons_append,
            Store.write_append]
        · rw [List.map_append, ← List.cons_append, ← List.append_assoc]
          exact hnew

mutual

/-- **A mapping is laid over another** by copying, and by writing to copies only. -/
theorem Reads.laysOver {view : View} {h : Held} {d : Data} : view.Reads h d → view.LaysOver h d
  | .data _ => fun _ _ _ _ _ _ _ _ h ↦ by cases h
  | .mapping hplace heach => by
    intro view' s base own upper hle hshows hbase h
    cases h
    cases hbase with
    | mapping hplace' heach' =>
      obtain ⟨outcome, more, hrun, hread⟩ := heach.exists_overlayEntries view' s hle hshows _ _ []
        (heach'.mono (within_append _ _))
      refine ⟨outcome :: more, ?_, .mapping ?_ (hread.mono (within_hidden _ _ _))⟩
      · rw [Store.overlay, hshows.getElem? hplace', hshows.getElem? (hle _ _ hplace)]
        dsimp only [Option.bind_eq_bind, Option.bind_some]
        rw [hrun]
        rfl
      · rw [← hshows.length_eq]
        exact getElem?_append_length _ _ _

/-- Entries are laid over those of a hidden copy, one after another. -/
theorem ReadEach.exists_overlayEntries {view : View} {held : List (Scalar × Held)}
    {entries : List (Scalar × Data)} : view.ReadEach held entries → ∀ (view' : View) (s : Store),
      view.Within view' → view'.Shows s → ∀ known own more,
      View.ReadEach (view' ++ none :: more.map some) known own → ∃ outcome more',
        Store.overlayEntries (s ++ known :: more) s.length held = some (s ++ outcome :: more') ∧
        View.ReadEach (view' ++ none :: more'.map some) outcome (Data.overlayEntries own entries)
  | .nil => by
    intro view' s _ _ known own more hknown
    rw [Store.overlayEntries, Data.overlayEntries_nil]
    exact ⟨known, more, rfl, hknown⟩
  | .cons hfirst hrest => by
    intro view' s hle hshows known own more hknown
    have hlays : view'.LaysOver _ _ := fun view'' s base own upper hle' ↦
      hfirst.laysOver view'' s base own upper (hle.trans hle')
    obtain ⟨value, new, hstep, hvalue⟩ := hlays.exists_step (hfirst.mono hle) hshows hknown _ _
    have hmore : View.Within (view' ++ none :: more.map some) (view' ++ none :: (more ++ new).map some) := by
      rw [List.map_append, ← List.cons_append, ← List.append_assoc]
      exact within_append _ _
    rw [Data.overlayEntries_cons, hstep]
    exact hrest.exists_overlayEntries view' s hle hshows _ _ _ ((hknown.mono hmore).put hvalue _)

end

end View

namespace Store

/-! ## Reading a store -/

/-- What is held reads as data. -/
def Reads (s : Store) (h : Held) (d : Data) : Prop := View.Reads (s.map some) h d

theorem Reads.append {s : Store} {h : Held} {d : Data} (hread : s.Reads h d) (more : Store) :
    (s ++ more).Reads h d := by
  rw [Reads, List.map_append]
  exact hread.mono (View.within_append _ _)

mutual

/-- Reading comes to its end. -/
theorem read?_eq_some {s : Store} {h : Held} {d : Data} :
    View.Reads (s.map some) h d → s.read? h = some d
  | .data _ => by rw [read?]
  | .mapping hplace heach => by
    rw [read?, (View.shows_some s).getElem? hplace]
    dsimp only [Option.bind_eq_bind, Option.bind_some]
    rw [readEach?_eq_some heach]
    rfl

theorem readEach?_eq_some {s : Store} {held : List (Scalar × Held)} {entries : List (Scalar × Data)} :
    View.ReadEach (s.map some) held entries → s.readEach? held = some entries
  | .nil => by rw [readEach?]
  | .cons hfirst hrest => by
    rw [readEach?, read?_eq_some hfirst, readEach?_eq_some hrest]
    rfl

end

theorem readEach_addEach {entries : List (Scalar × Data)}
    (hinner : ∀ e ∈ entries, ∀ s : Store,
      ∃ more, (s.add e.2).1 = s ++ more ∧ (s.add e.2).1.Reads (s.add e.2).2 e.2)
    (s : Store) : ∃ more, (s.addEach entries).1 = s ++ more ∧
      View.ReadEach ((s.addEach entries).1.map some) (s.addEach entries).2 entries := by
  induction entries generalizing s with
  | nil => exact ⟨[], (List.append_nil s).symm, .nil⟩
  | cons e entries ih =>
    obtain ⟨hfirst, hrest⟩ := List.forall_mem_cons.mp hinner
    obtain ⟨more, hadd, hread⟩ := hfirst s
    obtain ⟨more', hadd', hread'⟩ := ih hrest (s.add e.2).1
    refine ⟨more ++ more', ?_, .cons ?_ hread'⟩
    · rw [← List.append_assoc, ← hadd]
      exact hadd'
    · have hmore := hread.append more'
      rwa [← hadd'] at hmore

/-- Nested mappings can be put in any store, and are read there. -/
theorem reads_add {d : Data} (hd : d.IsNested) (s : Store) :
    ∃ more, (s.add d).1 = s ++ more ∧ (s.add d).1.Reads (s.add d).2 d := by
  induction hd generalizing s with
  | @plain d h =>
    have hadd : s.add d = (s, .data d) := by
      cases d with
      | map entries => cases h
      | scalar | list | pair | set | known | again => rfl
    rw [hadd]
    exact ⟨[], (List.append_nil s).symm, .data h⟩
  | @mapping entries once inner ih =>
    obtain ⟨more, hadd, hread⟩ := readEach_addEach ih s
    have hmapping : s.add (map entries)
        = ((s.addEach entries).1 ++ [(s.addEach entries).2], .mapping (s.addEach entries).1.length) := rfl
    rw [hmapping]
    refine ⟨more ++ [(s.addEach entries).2], by rw [hadd, List.append_assoc], ?_⟩
    rw [Reads, List.map_append]
    refine .mapping ?_ (hread.mono (View.within_append _ _))
    rw [← (View.shows_some (s.addEach entries).1).length_eq]
    exact getElem?_append_length _ _ _

/-! ## Laying over -/

/-- **Laying over decides each path by one rule, and writes to nothing that was there.** Of nested mappings, what
stands at a path of keys once one is laid over the other follows the rule, whatever stands in place of a mapping on
either side. So neither an empty mapping nor the same one again changes anything further. In every store that holds
both, perhaps as parts of one another, this comes to its end, all that was at a place is there as it was, and what
comes of it reads as the one laid over the other. -/
theorem overlay_decides {own entries : List (Scalar × Data)} (hbase : (map own).IsNested)
    (hupper : (map entries).IsNested) :
    (∀ path, FollowsRule (map own) (map entries) (Data.overlay (map own) (map entries)) path) ∧
      Data.overlay (map own) (map []) = map own ∧
      Data.overlay (map []) (map entries) = map entries ∧
      Data.overlay (map own) (map own) = map own ∧
      Data.overlay (Data.overlay (map own) (map entries)) (map entries)
        = Data.overlay (map own) (map entries) ∧
      ∀ (s : Store) (base upper : Nat), s.Reads (.mapping base) (map own) →
        s.Reads (.mapping upper) (map entries) → ∃ s' outcome, s.overlay base upper = some (s', outcome) ∧
          s'.Reads (.mapping outcome) (Data.overlay (map own) (map entries)) ∧ s <+: s' ∧
          s'.Reads (.mapping base) (map own) ∧ s'.Reads (.mapping upper) (map entries) := by
  refine ⟨followsRule_overlay hbase hupper, overlay_empty, empty_overlay (isNested_map_iff.mp hupper).1,
    overlay_self hbase, overlay_overlay hbase hupper, fun s base upper hreads hreads' ↦ ?_⟩
  obtain ⟨more, hrun, hread⟩ := View.Reads.laysOver hreads' _ s base own upper (View.Within.refl _)
    (View.shows_some s) hreads rfl
  refine ⟨s ++ more, s.length, hrun, ?_, List.prefix_append s more, hreads.append more, hreads'.append more⟩
  rwa [Reads, List.map_append]

/-- Entries below those of `crossingEntries`: under one key, a value and a mapping. -/
def crossedEntries : List (Scalar × Data) :=
  [(.str "a", map [(.str "x", .scalar (.int 1)), (.str "y", map [(.str "z", .scalar (.int 2))])]),
    (.str "b", .scalar (.int 3))]

/-- Under the same key, a mapping and a value take their places. -/
def crossingEntries : List (Scalar × Data) :=
  [(.str "a", map [(.str "y", .scalar (.int 5)), (.str "x", map [(.str "w", .scalar (.int 4))])]),
    (.str "c", map [])]

/-- Each of the two takes the other's place below the key that both share, in a store that holds both, and the lower
mapping reads as before. -/
theorem overlay_decides_crossing :
    (map crossedEntries).IsNested ∧ (map crossingEntries).IsNested ∧
      ∃ (s : Store) (base upper : Nat), s.Reads (.mapping base) (map crossedEntries) ∧
        s.Reads (.mapping upper) (map crossingEntries) ∧
        ∃ s' outcome, s.overlay base upper = some (s', outcome) ∧
          s'.read? (.mapping outcome) = some (map
            [(.str "a", map [(.str "x", map [(.str "w", .scalar (.int 4))]), (.str "y", .scalar (.int 5))]),
              (.str "b", .scalar (.int 3)), (.str "c", map [])]) ∧
          s'.read? (.mapping base) = some (map crossedEntries) := by
  have hscalar : ∀ x, (Data.scalar x).IsNested := fun _ ↦ .plain rfl
  have hlower : (map crossedEntries).IsNested := by
    simp [crossedEntries, isNested_map_iff, hscalar, EntriesOnce, Scalar.sameKey, Scalar.whole?]
  have hupper : (map crossingEntries).IsNested := by
    simp [crossingEntries, isNested_map_iff, hscalar, EntriesOnce, Scalar.sameKey, Scalar.whole?]
  obtain ⟨-, -, hread⟩ := reads_add hlower []
  obtain ⟨more, hmore, hread'⟩ := reads_add hupper (add [] (map crossedEntries)).1
  have hreads := hread.append more
  rw [← hmore] at hreads
  obtain ⟨-, -, -, -, -, hlaid⟩ := overlay_decides hlower hupper
  obtain ⟨s', outcome, hrun, houtcome, -, hbase, -⟩ := hlaid _ _ _ hreads hread'
  exact ⟨hlower, hupper, _, _, _, hreads, hread', s', outcome, hrun, read?_eq_some houtcome, read?_eq_some hbase⟩

end Store

end RefCheck.Yaml
