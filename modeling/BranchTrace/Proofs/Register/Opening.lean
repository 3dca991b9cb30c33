import BranchTrace.Proofs.Register.Transfers
import BranchTrace.Register.Device
import Std.Data.String.ToNat

/-!
# Opening the register nodes

Every cpu has a node of its own (`NodeBank.nodePath_injective`), and what comes of opening it is
kept in the place of the cpu (`NodeBank.openNodes_eq`), so an access to a cpu goes to its own node
or nowhere.

Main statement: `NodeBank.openAll_keeps_places`.
-/

namespace BranchTrace

namespace FileTree

/-- To open a path that reaches the system is to walk its names. -/
theorem openAt_of_short (tree : FileTree) (path : String) (mode : OpenMode)
    (hshort : ¬(maxPath ≤ path.utf8ByteSize ∨ path.toList.contains '\x00')) (hne : path ≠ "") :
    tree.openAt path mode =
      match tree.walk maxLinks [] (names path) with
      | .error errno => .error (.ofCall (.errno errno))
      | .ok place =>
        match tree.node? place with
        | none => .error (.ofCall (.errno Errno.enoent))
        | some node =>
          ((admits mode node).mapError fun errno => .ofCall (.errno errno)).map fun _ => place := by
  rw [openAt, if_neg hshort, resolve, if_neg hne]
  cases tree.walk maxLinks [] (names path) with
  | error errno => rfl
  | ok place =>
    dsimp only [Except.mapError, bind, Except.bind]
    rcases tree.node? place with _ | node
    · rfl
    · dsimp only
      cases admits mode node <;> rfl

end FileTree

namespace NodeBank

/-! ## The path of a node -/

/-- What stands between a directory and a name in it. -/
def slash (directory : String) : String :=
  if directory.isEmpty ∨ directory.toList.getLast? = some '/' then "" else "/"

theorem joinPath_eq (directory name : String) :
    joinPath directory name = directory ++ slash directory ++ name := by
  rw [joinPath, slash]
  split
  · rw [String.append_empty]
  · rfl

theorem slash_append_number (directory : String) (n : Nat) :
    slash (directory ++ toString n) = "/" := by
  have hne : Nat.toDigits 10 n ≠ [] := Nat.toDigits_ne_nil
  have hlast : (directory ++ toString n).toList.getLast? =
      some ((Nat.toDigits 10 n).getLast hne) := by
    rw [String.toList_append, Nat.toString_eq_repr, Nat.toList_repr, List.getLast?_append,
      List.getLast?_eq_some_getLast hne]
    rfl
  have hdigit := Nat.isDigit_of_mem_toDigits (by decide) (by decide) (List.getLast_mem hne)
  rw [slash, if_neg]
  rintro (hempty | hslash)
  · rw [String.isEmpty_iff] at hempty
    rw [hempty] at hlast
    cases hlast
  · rw [hlast] at hslash
    rw [Option.some.inj hslash] at hdigit
    cases hdigit

/-- Every cpu has a node of its own. -/
theorem nodePath_injective (root : String) : Function.Injective (nodePath root) := by
  intro cpu cpu' h
  simp only [nodePath, joinPath_eq, slash_append_number, String.append_left_inj,
    String.append_right_inj] at h
  exact Nat.repr_injective h

/-! ## One node after the other -/

variable {m : Machine}

/-- What comes of opening the node of a cpu. -/
def opened (root : String) (m : Machine) (cpu : Nat) : Except SystemError Place :=
  m.files.openAt (nodePath root cpu) .readWrite

/-- The report about it, if it fails. -/
def complaint? (root : String) (m : Machine) (cpu : Nat) : Option Event :=
  match opened root m cpu with
  | .ok _ => none
  | .error e => some (.nodeFailed (nodePath root cpu) e)

/-- The machine with a report about a cpu, if there is one to make. -/
def complained (root : String) (m : Machine) (cpu : Nat) : Machine :=
  { m with events := (complaint? root m cpu).toList ++ m.events }

theorem openNodes_cons (root : String) (cpu : Nat) (rest : List Nat) (m : Machine) :
    openNodes root (cpu :: rest) m =
      (opened root m cpu :: (openNodes root rest (complained root m cpu)).1,
        (openNodes root rest (complained root m cpu)).2) := by
  have hread : openNodes root (cpu :: rest) m =
      (do
        match opened root m cpu with
        | .ok _ => pure ()
        | .error e => report (.nodeFailed (nodePath root cpu) e)
        return opened root m cpu :: (← openNodes root rest) : StateM Machine _) m := rfl
  rw [hread, complained, complaint?]
  cases opened root m cpu <;> rfl

/-- Every node is tried whatever comes of the others, and those that fail are reported. -/
theorem openNodes_eq (root : String) (cpus : List Nat) (m : Machine) :
    openNodes root cpus m =
      (cpus.map (opened root m),
        { m with events := (cpus.filterMap (complaint? root m)).reverse ++ m.events }) := by
  induction cpus generalizing m with
  | nil => rfl
  | cons cpu rest ih =>
    rw [openNodes_cons, ih]
    have hopened : opened root (complained root m cpu) = opened root m := rfl
    have hcomplaint : complaint? root (complained root m cpu) = complaint? root m := rfl
    rw [hopened, hcomplaint, List.map_cons, List.filterMap_cons]
    cases hc : complaint? root m cpu with
    | none => simp [complained, hc]
    | some event => simp [complained, hc]

theorem firstError_map_range {α : Type} {f : Nat → Except SystemError α} {e : SystemError}
    {n : Nat} (hn : 0 < n) (h : f 0 = .error e) :
    firstError ((List.range n).map f) = some e := by
  obtain ⟨n, rfl⟩ := Nat.exists_eq_succ_of_ne_zero (Nat.ne_of_gt hn)
  rw [List.range_succ_eq_map, List.map_cons, h]
  rfl

/-! ## All nodes -/

/-- The number of cpus is not to be had: there are none, or the call for it is struck. -/
def Uncounted (m : Machine) : Prop :=
  m.cpus = 0 ∨ (Machine.trip .nproc m).1.isSome

/-- What came of opening the nodes, by the number of the cpu. -/
def bankOf (root : String) (m : Machine) : NodeBank :=
  { nodes := (List.range m.cpus).map fun cpu => (opened root m cpu).toOption }

variable {root : String}

theorem nproc_eq (m : Machine) :
    Machine.nproc m =
      (match (Machine.trip .nproc m).1 with
        | some fault => .error (.os fault.errno)
        | none => if m.cpus = 0 then .error (.os 0) else .ok m.cpus,
        (Machine.trip .nproc m).2) := by
  unfold Machine.nproc Machine.guarded Machine.trip
  rcases Fault.trip .nproc m.faults with ⟨_ | fault, faults⟩
  · dsimp only
    rw [Action.bind_apply, Action.get_apply]
    by_cases hcpus : m.cpus = 0
    · simp only [hcpus]
      rfl
    · simp only [if_neg hcpus]
      rfl
  · rfl

theorem nproc_uncounted (h : Uncounted m) : ∃ e, (Machine.nproc m).1 = .error e := by
  rw [nproc_eq]
  cases ht : (Machine.trip .nproc m).1 with
  | some fault => exact ⟨_, rfl⟩
  | none =>
    have hcpus : m.cpus = 0 := h.resolve_right (by simp [ht])
    exact ⟨.os 0, if_pos hcpus⟩

theorem nproc_counted (h : ¬Uncounted m) :
    Machine.nproc m = (.ok m.cpus, (Machine.trip .nproc m).2) := by
  obtain ⟨hcpus, hnone⟩ := not_or.mp h
  rw [nproc_eq, Option.not_isSome_iff_eq_none.mp hnone]
  dsimp only
  rw [if_neg hcpus]

/-- What comes of opening all nodes, once the number of cpus is known. -/
theorem openAll_counted (h : ¬Uncounted m) :
    (openAll root m).1 =
      if (bankOf root m).nodes.any Option.isSome then .ok (bankOf root m)
      else .error
        ((firstError ((List.range m.cpus).map (opened root m))).getD (.os Errno.enodev)) := by
  have hopened : opened root (Machine.trip .nproc m).2 = opened root m := rfl
  rw [openAll, Action.bind_apply, nproc_counted h]
  dsimp only
  rw [Action.bind_apply, Action.state_apply, openNodes_eq, hopened]
  dsimp only
  have hnodes : ((List.range m.cpus).map (opened root m)).map Except.toOption =
    (bankOf root m).nodes := List.map_map
  rw [hnodes]
  split <;> rfl

theorem toOption_opened {cpu : Nat} {place : Place} :
    (opened root m cpu).toOption = some place ↔ opened root m cpu = .ok place := by
  cases opened root m cpu <;> simp [Except.toOption]

theorem any_nodes_bankOf : (bankOf root m).nodes.any Option.isSome ↔
    ∃ cpu < m.cpus, ∃ place, opened root m cpu = .ok place := by
  simp [bankOf, Option.isSome_iff_exists, toOption_opened]

/-- Some node opens, or none does. -/
theorem exists_or_forall_opened (root : String) (m : Machine) :
    (∃ cpu < m.cpus, ∃ place, opened root m cpu = .ok place) ∨
      ∀ cpu < m.cpus, ∃ e, opened root m cpu = .error e := by
  refine (Classical.em _).imp_right fun hnone cpu hcpu => ?_
  cases ho : opened root m cpu with
  | error e => exact ⟨e, rfl⟩
  | ok place => exact absurd ⟨cpu, hcpu, place, ho⟩ hnone

theorem openAll_of_exists (h : ¬Uncounted m)
    (hopened : ∃ cpu < m.cpus, ∃ place, opened root m cpu = .ok place) :
    (openAll root m).1 = .ok (bankOf root m) := by
  rw [openAll_counted h, if_pos (any_nodes_bankOf.mpr hopened)]

/-- If no node opens, the failure is that of the lowest cpu. -/
theorem openAll_of_forall (h : ¬Uncounted m)
    (hclosed : ∀ cpu < m.cpus, ∃ e, opened root m cpu = .error e) :
    ∃ e, opened root m 0 = .error e ∧ (openAll root m).1 = .error e := by
  have hpos : 0 < m.cpus := Nat.pos_of_ne_zero fun hcpus => h (.inl hcpus)
  obtain ⟨e, he⟩ := hclosed 0 hpos
  have hnone : ¬(bankOf root m).nodes.any Option.isSome := by
    rw [any_nodes_bankOf]
    rintro ⟨cpu, hcpu, place, hplace⟩
    obtain ⟨e', he'⟩ := hclosed cpu hcpu
    cases hplace.symm.trans he'
  refine ⟨e, he, ?_⟩
  rw [openAll_counted h, if_neg hnone, firstError_map_range hpos he]
  rfl

theorem openAll_uncounted (root : String) (h : Uncounted m) :
    ∃ e, (openAll root m).1 = .error e := by
  obtain ⟨e, he⟩ := nproc_uncounted h
  rw [openAll, Action.bind_apply]
  rcases hn : Machine.nproc m with ⟨r, m'⟩
  rw [hn] at he
  obtain rfl : r = .error e := he
  exact ⟨e, rfl⟩

theorem bank_of_openAll {bank : NodeBank} (h : (openAll root m).1 = .ok bank) :
    bank = bankOf root m := by
  by_cases hcounted : Uncounted m
  · obtain ⟨e, he⟩ := openAll_uncounted root hcounted
    cases he.symm.trans h
  · rcases exists_or_forall_opened root m with hopened | hclosed
    · exact Except.ok.inj (h.symm.trans (openAll_of_exists hcounted hopened))
    · obtain ⟨e, -, he⟩ := openAll_of_forall hcounted hclosed
      cases he.symm.trans h

/-- In a machine with the bank of opened nodes a cpu has the place that came of opening its own. -/
theorem place?_bankOf {later : Machine} (h : later.bank = .nodes (bankOf root m)) (cpu : Nat)
    (place : Place) :
    later.place? cpu = some place ↔ cpu < m.cpus ∧ opened root m cpu = .ok place := by
  have hnode : later.place? cpu = ((bankOf root m).nodes[cpu]?).join := by
    rw [Machine.place?, h]
    exact toOption_node _ cpu
  rw [hnode, bankOf, List.getElem?_map]
  by_cases hcpu : cpu < m.cpus
  · rw [List.getElem?_range hcpu, Option.map_some, Option.join_some, toOption_opened]
    exact (and_iff_right hcpu).symm
  · rw [List.getElem?_eq_none (by simpa using hcpu)]
    simp [hcpu]

/-- Every cpu has a node of its own. Opening the nodes fails if the number of cpus is not to be had,
or if no node opens, and then with the failure of the lowest cpu. Otherwise it succeeds, and
whatever happens later, the accesses to a cpu go to its own node, or, if that one did not open or
is not that of a configured cpu, fail before any transfer. -/
theorem openAll_keeps_places (root : String) (m : Machine) :
    Function.Injective (nodePath root) ∧
    ((∃ e, (openAll root m).1 = .error e) ↔
      Uncounted m ∨ ∀ cpu < m.cpus, ∃ e, opened root m cpu = .error e) ∧
    (¬Uncounted m → (∀ cpu < m.cpus, ∃ e, opened root m cpu = .error e) →
      ∃ e, opened root m 0 = .error e ∧ (openAll root m).1 = .error e) ∧
    ∀ bank, (openAll root m).1 = .ok bank → ∀ later : Machine, later.bank = .nodes bank →
      ∀ cpu,
        (∀ place, later.place? cpu = some place ↔
          cpu < m.cpus ∧ opened root m cpu = .ok place) ∧
        (∀ place, later.place? cpu = some place → later.Reaches cpu place) ∧
        (later.place? cpu = none → later.Refuses cpu) := by
  refine ⟨nodePath_injective root, ⟨?_, ?_⟩, openAll_of_forall, ?_⟩
  · rintro ⟨e, he⟩
    refine or_iff_not_imp_left.mpr fun h => (exists_or_forall_opened root m).resolve_left ?_
    intro hopened
    cases he.symm.trans (openAll_of_exists h hopened)
  · rintro (h | hclosed)
    · exact openAll_uncounted root h
    · by_cases h : Uncounted m
      · exact openAll_uncounted root h
      · obtain ⟨e, -, he⟩ := openAll_of_forall h hclosed
        exact ⟨e, he⟩
  · intro bank hbank later hlater cpu
    have hbankOf : later.bank = .nodes (bankOf root m) := by
      rw [hlater, bank_of_openAll hbank]
    exact ⟨place?_bankOf hbankOf cpu, fun _ => Machine.reaches_of_place,
      Machine.refuses_of_no_place hlater⟩

/-- A machine of three cpus that has the node of the second one alone. -/
def loneNode : Machine :=
  { Machine.new 3 with files := FileTree.base.plant ["1", "msr"] (.zeros 0) }

theorem opened_loneNode : opened "" loneNode 1 = .ok ["1", "msr"] := by
  have hpath : nodePath "" 1 = "1/msr" := by decide +kernel
  have hnames : FileTree.names "1/msr" = ["1", "msr"] := by decide +kernel
  have hwalk : loneNode.files.walk FileTree.maxLinks [] ["1", "msr"] = .ok ["1", "msr"] := by
    have hroot : loneNode.files.node? [] = some .directory := by rfl
    have habove : loneNode.files.node? ["1"] = some .directory := by rfl
    have hnode : loneNode.files.node? ["1", "msr"] = some (.bytes (.zeros 0)) := by rfl
    have hlong : ∀ name ∈ ["1", "msr"], ¬FileTree.maxName < name.utf8ByteSize := by
      decide +kernel
    simp [FileTree.walk, hroot, habove, hnode, hlong]
  have hopen := FileTree.openAt_of_short loneNode.files "1/msr" .readWrite (by decide +kernel)
    (by decide +kernel)
  rw [hnames, hwalk] at hopen
  rw [opened, hpath, hopen]
  rfl

theorem opened_of_nothing {m : Machine} (hroot : m.files.node? [] = some .directory)
    (hnone : m.files.node? ["0"] = none) : opened "" m 0 = .error (.os Errno.enoent) := by
  have hpath : nodePath "" 0 = "0/msr" := by decide +kernel
  have hnames : FileTree.names "0/msr" = ["0", "msr"] := by decide +kernel
  have hwalk : m.files.walk FileTree.maxLinks [] ["0", "msr"] = .error Errno.enoent := by
    have hlong : ¬FileTree.maxName < "0".utf8ByteSize := by decide +kernel
    simp [FileTree.walk, hroot, hnone, hlong]
  have hopen := FileTree.openAt_of_short m.files "0/msr" .readWrite (by decide +kernel)
    (by decide +kernel)
  rw [hnames, hwalk] at hopen
  rw [opened, hpath, hopen]
  rfl

/-- The second cpu is reached through its own node, the first one and those beyond the configured
ones are refused. Without any node the failure is that of the first cpu. -/
theorem openAll_keeps_places_lone :
    (∃ bank, (openAll "" loneNode).1 = .ok bank ∧
      ({ loneNode with bank := .nodes bank } : Machine).Reaches 1 ["1", "msr"] ∧
      ({ loneNode with bank := .nodes bank } : Machine).Refuses 0 ∧
      ({ loneNode with bank := .nodes bank } : Machine).Refuses 7) ∧
    (openAll "" (Machine.new 1)).1 = .error (.os Errno.enoent) := by
  constructor
  · have hclosed : opened "" loneNode 0 = .error (.os Errno.enoent) := opened_of_nothing rfl rfl
    have hcounted : ¬Uncounted loneNode := not_or.mpr ⟨by decide, by decide⟩
    obtain ⟨-, hfails, -, hplaces⟩ := openAll_keeps_places "" loneNode
    cases hbank : (openAll "" loneNode).1 with
    | error e =>
      obtain ⟨e', he'⟩ := (hfails.mp ⟨e, hbank⟩).resolve_left hcounted 1 (by decide)
      cases opened_loneNode.symm.trans he'
    | ok bank =>
      have hlater := hplaces bank hbank { loneNode with bank := .nodes bank } rfl
      refine ⟨bank, rfl, ?_, ?_, ?_⟩
      · obtain ⟨hplace, hreaches, -⟩ := hlater 1
        exact hreaches _ ((hplace _).mpr ⟨by decide, opened_loneNode⟩)
      · obtain ⟨hplace, -, hrefuses⟩ := hlater 0
        refine hrefuses (Option.eq_none_iff_forall_ne_some.mpr fun place h => ?_)
        cases hclosed.symm.trans ((hplace place).mp h).2
      · obtain ⟨hplace, -, hrefuses⟩ := hlater 7
        refine hrefuses (Option.eq_none_iff_forall_ne_some.mpr fun place h => ?_)
        exact absurd ((hplace place).mp h).1 (by decide)
  · have hclosed : opened "" (Machine.new 1) 0 = .error (.os Errno.enoent) :=
      opened_of_nothing rfl rfl
    have hcounted : ¬Uncounted (Machine.new 1) := not_or.mpr ⟨by decide, by decide⟩
    obtain ⟨-, -, hfirst, -⟩ := openAll_keeps_places "" (Machine.new 1)
    obtain ⟨e, he, hall⟩ := hfirst hcounted fun cpu hcpu => by
      obtain rfl : cpu = 0 := Nat.lt_one_iff.mp hcpu
      exact ⟨_, hclosed⟩
    rw [hall, Except.error.inj (he.symm.trans hclosed)]

end NodeBank

end BranchTrace
