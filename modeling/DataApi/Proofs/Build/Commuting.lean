import DataApi.Proofs.Build.Signature

/-!
# Decorators that commute

Of two neighbours in a list neither of which chooses an operation, each makes the same declarations
in front of the other as behind it: only the kind and the name of the document count for them, and
both stay as they are. So exchanging the two moves a block of declarations across another block
(`registrations_swap`). No policy asks for an order of declarations, hence one list builds a
document if the other one does. If the two blocks have no name in common, every name keeps its last
declaration as well, and the two documents hold the same variables; what can differ is where in the
document they stand.
-/

namespace DataApi

/-- Two documents differ at most in the order of their variables. -/
structure Document.SameUpToOrder (d e : Document) : Prop where
  kind : d.kind = e.kind
  name : d.name = e.name
  directive? : d.directive? = e.directive?
  selection? : d.selection? = e.selection?
  declared : ∀ name, d.declared.get? name = e.declared.get? name

namespace Decorator

/-- Two decorators declare no name in common, where each of them can make its declarations. -/
def Independent (s : Schema) (kind : OperationKind) (op? : Option Operation)
    (first second : Decorator) : Prop :=
  ∀ l r, first.declarationsAfter s kind op? = .ok l → second.declarationsAfter s kind op? = .ok r →
    (l.map Prod.fst).Disjoint (r.map Prod.fst)

variable {s : Schema} {kind : OperationKind} {config : Config} {op? : Option Operation}
  {before after : List Decorator} {first second : Decorator}

theorem Independent.symm (h : Independent s kind op? first second) :
    Independent s kind op? second first :=
  fun r l hr hl _ hmem hmem' => h l r hl hr hmem' hmem

theorem filterMap_operation?_swap (hfirst : first.operation? = none)
    (hsecond : second.operation? = none) :
    (before ++ first :: second :: after).filterMap operation? =
      (before ++ second :: first :: after).filterMap operation? := by
  simp [hfirst, hsecond]

theorem lastOperation?_swap (hfirst : first.operation? = none)
    (hsecond : second.operation? = none) :
    lastOperation? (before ++ first :: second :: after) =
      lastOperation? (before ++ second :: first :: after) := by
  rw [lastOperation?, lastOperation?, filterMap_operation?_swap hfirst hsecond]

theorem registrations_pair_eq_ok_iff (hfirst : first.operation? = none)
    (hsecond : second.operation? = none) {declared : List (String × Variable)} :
    registrations s kind op? (first :: second :: after) = .ok declared ↔
      ∃ l r others, first.declarationsAfter s kind op? = .ok l ∧
        second.declarationsAfter s kind op? = .ok r ∧
        registrations s kind op? after = .ok others ∧ declared = l ++ (r ++ others) := by
  simp only [registrations_cons_eq_ok_iff, hfirst, hsecond, Option.none_or]
  constructor
  · rintro ⟨l, hl, _, ⟨r, hr, others, hothers, rfl⟩, rfl⟩
    exact ⟨l, r, others, hl, hr, hothers, rfl⟩
  · rintro ⟨l, r, others, hl, hr, hothers, rfl⟩
    exact ⟨l, hl, _, ⟨r, hr, others, hothers, rfl⟩, rfl⟩

theorem registrations_swap (hfirst : first.operation? = none) (hsecond : second.operation? = none)
    {declared : List (String × Variable)}
    (h : registrations s kind op? (before ++ first :: second :: after) = .ok declared) :
    ∃ earlier l r later, declared = earlier ++ (l ++ (r ++ later)) ∧
      first.declarationsAfter s kind ((lastOperation? before).or op?) = .ok l ∧
      second.declarationsAfter s kind ((lastOperation? before).or op?) = .ok r ∧
      registrations s kind op? (before ++ second :: first :: after) =
        .ok (earlier ++ (r ++ (l ++ later))) := by
  obtain ⟨earlier, hearlier, own, hown, rfl⟩ := registrations_append_eq_ok_iff.1 h
  obtain ⟨l, r, later, hl, hr, hlater, rfl⟩ := (registrations_pair_eq_ok_iff hfirst hsecond).1 hown
  have hswapped : registrations s kind ((lastOperation? before).or op?)
      (second :: first :: after) = .ok (r ++ (l ++ later)) :=
    (registrations_pair_eq_ok_iff hsecond hfirst).2 ⟨r, l, later, hr, hl, hlater, rfl⟩
  refine ⟨earlier, l, r, later, rfl, hl, hr, ?_⟩
  exact registrations_append_eq_ok_iff.2 ⟨earlier, hearlier, _, hswapped, rfl⟩

end Decorator

theorem CollisionPolicy.Admits.of_perm {policy : CollisionPolicy} {l r : List (String × Variable)}
    (hl : policy.Admits l) (h : r.Perm l) : policy.Admits r :=
  hl.of_signatures_subset (List.map_subset _ h.subset)

theorem Document.outline_swap (s : Schema) (kind : OperationKind) (config : Config)
    (op? : Option Operation) (earlier later : List (String × Variable))
    {l r : List (String × Variable)} (h : (l.map Prod.fst).Disjoint (r.map Prod.fst)) :
    SameUpToOrder (.outline s kind config op? (earlier ++ (l ++ (r ++ later))))
      (.outline s kind config op? (earlier ++ (r ++ (l ++ later)))) where
  kind := rfl
  name := rfl
  directive? := rfl
  selection? := rfl
  declared name := by
    simp only [outline, OrderedMap.ofList_append, OrderedMap.insertAll_append]
    exact OrderedMap.get?_insertAll_congr (OrderedMap.get?_insertAll_comm _ h) later name

/-- What a list of decorators builds is built, up to order, after two independent neighbours have
been exchanged. -/
theorem exists_buildDocument_swap {s : Schema} {kind : OperationKind} {config : Config}
    {before after : List Decorator} {first second : Decorator} {d : Document}
    (hfirst : first.operation? = none) (hsecond : second.operation? = none)
    (hindependent : first.Independent s kind (Decorator.lastOperation? before) second)
    (h : buildDocument s kind config (before ++ first :: second :: after) = .ok d) :
    ∃ e, buildDocument s kind config (before ++ second :: first :: after) = .ok e ∧
      d.SameUpToOrder e := by
  obtain ⟨hvalid, hkinds, op, hop, declared, hdeclared, hadmits, rfl⟩ := buildDocument_eq_ok_iff.1 h
  obtain ⟨earlier, l, r, later, rfl, hl, hr, hswapped⟩ :=
    Decorator.registrations_swap hfirst hsecond hdeclared
  rw [Option.or_none] at hl hr
  rw [Decorator.filterMap_operation?_swap hfirst hsecond] at hkinds
  rw [Decorator.lastOperation?_swap hfirst hsecond] at hop
  have hperm : (earlier ++ (r ++ (l ++ later))).Perm (earlier ++ (l ++ (r ++ later))) :=
    (List.perm_append_left_iff earlier).2 (List.perm_append_comm_assoc r l later)
  refine ⟨_, buildDocument_eq_ok_iff.2
    ⟨hvalid, hkinds, op, hop, _, hswapped, hadmits.of_perm hperm, rfl⟩, ?_⟩
  exact Document.outline_swap s kind config (some op) earlier later (hindependent l r hl hr)

/-- Two neighbours that choose no operation and declare no name in common may be exchanged, whatever
comes before and behind them: one list builds a document if the other one does, and the two
documents differ at most in the order of their variables. -/
theorem buildDocument_swap {s : Schema} {kind : OperationKind} {config : Config}
    {before after : List Decorator} {first second : Decorator}
    (hfirst : first.operation? = none) (hsecond : second.operation? = none)
    (hindependent : first.Independent s kind (Decorator.lastOperation? before) second) :
    ((∃ d, buildDocument s kind config (before ++ first :: second :: after) = .ok d) ↔
      ∃ e, buildDocument s kind config (before ++ second :: first :: after) = .ok e) ∧
    ∀ d e, buildDocument s kind config (before ++ first :: second :: after) = .ok d →
      buildDocument s kind config (before ++ second :: first :: after) = .ok e →
        d.SameUpToOrder e := by
  refine ⟨⟨fun ⟨d, hd⟩ => ?_, fun ⟨e, he⟩ => ?_⟩, fun d e hd he => ?_⟩
  · obtain ⟨e, he, _⟩ := exists_buildDocument_swap hfirst hsecond hindependent hd
    exact ⟨e, he⟩
  · obtain ⟨d, hd, _⟩ := exists_buildDocument_swap hsecond hfirst hindependent.symm he
    exact ⟨d, hd⟩
  · obtain ⟨e', he', hsame⟩ := exists_buildDocument_swap hfirst hsecond hindependent hd
    rw [he] at he'
    rwa [Except.ok.inj he']

def filteredPages (first second : Decorator) : List Decorator :=
  [.directive .list, .modelId (.byId "7")] ++ first :: second ::
    [.filter (.compare "title" (.relation .ne (.string "b"))),
      .pagination { limit := some 9, nextToken := some "t" }]

theorem buildDocument_swap_filteredPages :
    let filter : Decorator := .filter (.compare "title" (.relation .eq (.string "a")))
    let page : Decorator := .pagination { limit := some 5 }
    filter.Independent .post .query (some .list) page ∧
      ∃ d e, buildDocument .post .query {} (filteredPages filter page) = .ok d ∧
        buildDocument .post .query {} (filteredPages page filter) = .ok e ∧
        d.declared.keys = ["id", "filter", "limit", "nextToken"] ∧
        e.declared.keys = ["id", "limit", "filter", "nextToken"] ∧ d.SameUpToOrder e := by
  intro filter page
  have hindependent : filter.Independent .post .query (some .list) page := by
    intro l r hl hr
    rw [← Except.ok.inj hl, ← Except.ok.inj hr]
    have hdisjoint : ["filter"].Disjoint ["limit"] := by simp
    exact hdisjoint
  have hd : ∃ d, buildDocument .post .query {} (filteredPages filter page) = .ok d := ⟨_, rfl⟩
  have he : ∃ e, buildDocument .post .query {} (filteredPages page filter) = .ok e := ⟨_, rfl⟩
  obtain ⟨d, hd⟩ := hd
  obtain ⟨e, he⟩ := he
  refine ⟨hindependent, d, e, hd, he, ?_, ?_, ?_⟩
  · rw [← Except.ok.inj hd]
    rfl
  · rw [← Except.ok.inj he]
    rfl
  · exact (buildDocument_swap rfl rfl hindependent).2 d e hd he

end DataApi
