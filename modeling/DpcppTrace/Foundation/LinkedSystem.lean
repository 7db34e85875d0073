import DpcppTrace.Foundation.PathResolution

/-! # Directories, regular files and symbolic links

Path strings are followed from the root through symbolic links, a bounded number of them: `..` goes up
from where the links have led, and the last component is a place in a directory that is there, or leads
to a directory itself. Whether a link in the last component is followed is up to the system call, and any
call may be refused. Where components lead is also a relation, without the bound and whether something is
there or not.
-/

namespace DpcppTrace.Foundation

inductive Node where
  | directory
  | file (content : Bytes)
  | link (text : Bytes)
deriving DecidableEq, Repr

/-- Everything that exists lies in a directory that exists. -/
structure LinkedSystem where
  node : Path → Option Node
  /-- Whether the system refuses what a path string asks for at a place, as things are: for want of rights
  or room, or as a name is too long. -/
  refuses : (Path → Option Node) → Bytes → Path → Bool
  root : node [] = some .directory
  closed : ∀ parent name, node (parent ++ [name]) ≠ none → node parent = some .directory

/-- The number of links that are followed for one path string. -/
def maxLinks : ℕ := 40

/-- The components of a path string; behind a last slash the directory itself is meant. -/
def linkNames (text : Bytes) : List Bytes :=
  components text ++ if text.getLast? = some slash then [str "."] else []

/-- The components of a path string behind those of a directory, from the root on. -/
def behind (base : Path) (text : Bytes) (names : List Bytes) : List Bytes :=
  if (cString text).head? = some slash then names else base ++ names

/-- Where a path ends: at a directory that is there, or at a name in one. -/
inductive Ending where
  | reached (location : Path)
  | named (parent : Path) (name : Bytes)
deriving DecidableEq

def Ending.place : Ending → Path
  | .reached location => location
  | .named parent name => parent ++ [name]

namespace LinkedSystem

/-- Components up to the first link, which is left to `next`. -/
def follow (fs : LinkedSystem) (last : Bool) (next : Path → List Bytes → Option Ending) :
    Path → List Bytes → Option Ending
  | location, [] => some (.reached location)
  | location, name :: rest =>
    if name = str "." then fs.follow last next location rest
    else if name = str ".." then fs.follow last next location.dropLast rest
    else
      match fs.node (location ++ [name]) with
      | some .directory => fs.follow last next (location ++ [name]) rest
      | some (.link text) =>
        if rest = [] ∧ last = false then some (.named location name)
        else next (startOf location text) (linkNames text ++ rest)
      | _ => if rest = [] then some (.named location name) else none

/-- Where components lead from a directory, through so many links at most. -/
def namei (fs : LinkedSystem) (last : Bool) : ℕ → Path → List Bytes → Option Ending
  | 0 => fs.follow last fun _ _ => none
  | links + 1 => fs.follow last (fs.namei last links)

/-- Put a node into an existing directory; directories are never replaced. -/
def put (fs : LinkedSystem) (path : Path) (node : Node) : LinkedSystem :=
  if fits : path ≠ [] ∧ fs.node path.dropLast = some .directory ∧ fs.node path ≠ some .directory
  then
    { fs with
      node := fun query => if query = path then some node else fs.node query
      root := by rw [if_neg (Ne.symm fits.1), fs.root]
      closed := by
        intro parent name present
        have outside : parent ≠ path := by
          rintro rfl
          apply fits.2.2
          have other : parent ++ [name] ≠ parent := by simp
          rw [if_neg other] at present
          exact fs.closed parent name present
        rw [if_neg outside]
        by_cases same : parent ++ [name] = path
        · rw [← fits.2.1, ← same, List.dropLast_concat]
        · rw [if_neg same] at present
          exact fs.closed parent name present }
  else fs

theorem node_put {fs : LinkedSystem} {path : Path} {node : Node} (nonempty : path ≠ [])
    (parent : fs.node path.dropLast = some .directory) (fresh : fs.node path ≠ some .directory)
    (query : Path) : (fs.put path node).node query = if query = path then some node else fs.node query := by
  rw [put, dif_pos ⟨nonempty, parent, fresh⟩]

@[simp] theorem refuses_put (fs : LinkedSystem) (path : Path) (node : Node) :
    (fs.put path node).refuses = fs.refuses := by
  rw [put]
  split_ifs <;> rfl

/-- What a path from the root leads to; `none` where nothing is there. -/
def lookup (fs : LinkedSystem) (names : List Bytes) : Option Entry :=
  match fs.namei true maxLinks [] names with
  | some (.reached _) => some .directory
  | some (.named parent name) =>
    match fs.node (parent ++ [name]) with
    | some (.file content) => some (.file content)
    | _ => none
  | none => none

/-- `std::filesystem::create_directory` for a path string with these components from the root; `none` when
it throws. -/
def makeDirectory (fs : LinkedSystem) (text : Bytes) (names : List Bytes) : Option LinkedSystem :=
  match fs.namei false maxLinks [] names with
  | some (.reached place) => if fs.refuses fs.node text place then none else some fs
  | some (.named parent name) =>
    if fs.refuses fs.node text (parent ++ [name]) then none
    else if fs.node (parent ++ [name]) = none then some (fs.put (parent ++ [name]) .directory)
    else if fs.lookup names = some .directory then some fs
    else none
  | none => none

def mkdir (fs : LinkedSystem) (names : List Bytes) : Option LinkedSystem :=
  fs.makeDirectory (joinPath names) names

def createDirectory (fs : LinkedSystem) (base : Path) (text : Bytes) : Option LinkedSystem :=
  fs.makeDirectory text (behind base text (components (cString text)))

/-- `std::ofstream{path}` followed by a write and a close; a file that cannot be opened is silently not
written. -/
def writeFile (fs : LinkedSystem) (base : Path) (text content : Bytes) : LinkedSystem :=
  match fs.namei true maxLinks [] (behind base text (linkNames (cString text))) with
  | some (.named parent name) =>
    if fs.refuses fs.node text (parent ++ [name]) then fs else fs.put (parent ++ [name]) (.file content)
  | _ => fs

/-! ## Where components lead -/

/-- Where components lead from a location, through any links. -/
inductive Leads (fs : LinkedSystem) : Path → List Bytes → Path → Prop
  | here {location : Path} : Leads fs location [] location
  | stay {location place : Path} {rest : List Bytes} (later : Leads fs location rest place) :
      Leads fs location (str "." :: rest) place
  | up {location place : Path} {rest : List Bytes} (later : Leads fs location.dropLast rest place) :
      Leads fs location (str ".." :: rest) place
  | down {location place : Path} {name : Bytes} {rest : List Bytes} (notDot : name ≠ str ".")
      (notDotDot : name ≠ str "..") (plain : ∀ text, fs.node (location ++ [name]) ≠ some (.link text))
      (later : Leads fs (location ++ [name]) rest place) : Leads fs location (name :: rest) place
  | link {location place : Path} {name text : Bytes} {rest : List Bytes} (notDot : name ≠ str ".")
      (notDotDot : name ≠ str "..") (linked : fs.node (location ++ [name]) = some (.link text))
      (later : Leads fs (startOf location text) (linkNames text ++ rest) place) :
      Leads fs location (name :: rest) place

/-- Components lead to one place at most. -/
theorem Leads.unique {fs : LinkedSystem} {location first second : Path} {names : List Bytes}
    (leads : fs.Leads location names first) (other : fs.Leads location names second) :
    first = second := by
  induction leads with
  | here =>
    cases other
    rfl
  | stay _ ih =>
    cases other with
    | stay later => exact ih later
    | down notDot => exact absurd rfl notDot
    | link notDot => exact absurd rfl notDot
  | up _ ih =>
    cases other with
    | up later => exact ih later
    | down _ notDotDot => exact absurd rfl notDotDot
    | link _ notDotDot => exact absurd rfl notDotDot
  | down notDot notDotDot plain _ ih =>
    cases other with
    | stay => exact absurd rfl notDot
    | up => exact absurd rfl notDotDot
    | down _ _ _ later => exact ih later
    | link _ _ linked => exact absurd linked (plain _)
  | link notDot notDotDot linked _ ih =>
    cases other with
    | stay => exact absurd rfl notDot
    | up => exact absurd rfl notDotDot
    | down _ _ plain => exact absurd linked (plain _)
    | link _ _ linked' later =>
      obtain rfl : _ = _ := Node.link.inj (Option.some.inj (linked.symm.trans linked'))
      exact ih later

theorem Leads.append {fs : LinkedSystem} {location middle place : Path} {front rest : List Bytes}
    (first : fs.Leads location front middle) (later : fs.Leads middle rest place) :
    fs.Leads location (front ++ rest) place := by
  induction first with
  | here => exact later
  | stay _ ih => exact .stay (ih later)
  | up _ ih => exact .up (ih later)
  | down notDot notDotDot plain _ ih => exact .down notDot notDotDot plain (ih later)
  | link notDot notDotDot linked _ ih =>
    refine .link notDot notDotDot linked ?_
    have onward := ih later
    rwa [List.append_assoc] at onward

/-- Where there are no links, ordinary names lead straight down. -/
theorem leads_plain {fs : LinkedSystem} {location : Path} {names : List Bytes}
    (valid : ∀ name ∈ names, ValidName name)
    (plain : ∀ below text, fs.node (location ++ below) ≠ some (.link text)) :
    fs.Leads location names (location ++ names) := by
  induction names generalizing location with
  | nil =>
    rw [List.append_nil]
    exact .here
  | cons name rest ih =>
    have here := valid name (List.mem_cons_self ..)
    have later := ih (fun other member => valid other (List.mem_cons_of_mem name member))
      (fun below text => by simpa using plain (name :: below) text : ∀ below text,
        fs.node (location ++ [name] ++ below) ≠ some (.link text))
    rw [List.append_assoc, List.singleton_append] at later
    exact .down here.notDot here.notDotDot (plain [name]) later

/-- Where components lead depends on the links only. -/
def SameLinks (fs after : LinkedSystem) : Prop :=
  ∀ place text, after.node place = some (.link text) ↔ fs.node place = some (.link text)

theorem SameLinks.trans {first second third : LinkedSystem} (early : first.SameLinks second)
    (late : second.SameLinks third) : first.SameLinks third :=
  fun place text => (late place text).trans (early place text)

theorem Leads.sameLinks {fs after : LinkedSystem} {location place : Path} {names : List Bytes}
    (leads : fs.Leads location names place) (same : fs.SameLinks after) :
    after.Leads location names place := by
  induction leads with
  | here => exact .here
  | stay _ ih => exact .stay ih
  | up _ ih => exact .up ih
  | down notDot notDotDot plain _ ih =>
    exact .down notDot notDotDot (fun text linked => plain text ((same _ text).mp linked)) ih
  | link notDot notDotDot linked _ ih => exact .link notDot notDotDot ((same _ _).mpr linked) ih

/-! ## What system calls come to -/

/-- A path ends at a directory, or in one at something else; at a link only if that is not to be
followed. -/
structure Ending.Sound (fs : LinkedSystem) (last : Bool) (ending : Ending) : Prop where
  reached : ∀ location, ending = .reached location → fs.node location = some .directory
  parent : ∀ parent name, ending = .named parent name → fs.node parent = some .directory
  other : ∀ parent name, ending = .named parent name → fs.node (parent ++ [name]) ≠ some .directory
  followed : last = true → ∀ text, fs.node ending.place ≠ some (.link text)

theorem sound_reached {fs : LinkedSystem} {last : Bool} {location : Path}
    (here : fs.node location = some .directory) : Ending.Sound fs last (.reached location) where
  reached := by
    rintro _ ⟨⟩
    exact here
  parent := nofun
  other := nofun
  followed _ text linked := by
    rw [Ending.place, here] at linked
    cases linked

theorem sound_named {fs : LinkedSystem} {last : Bool} {parent : Path} {name : Bytes}
    (here : fs.node parent = some .directory) (other : fs.node (parent ++ [name]) ≠ some .directory)
    (followed : last = true → ∀ text, fs.node (parent ++ [name]) ≠ some (.link text)) :
    Ending.Sound fs last (.named parent name) where
  reached := nofun
  parent := by
    rintro _ _ ⟨⟩
    exact here
  other := by
    rintro _ _ ⟨⟩
    exact other
  followed := followed

theorem dropLast_directory (fs : LinkedSystem) {path : Path} (here : fs.node path = some .directory) :
    fs.node path.dropLast = some .directory := by
  rcases List.eq_nil_or_concat path with rfl | ⟨parent, name, rfl⟩
  · exact here
  · rw [List.concat_eq_append] at here ⊢
    rw [List.dropLast_concat]
    exact fs.closed parent name (by simp [here])

theorem startOf_directory (fs : LinkedSystem) {location : Path}
    (here : fs.node location = some .directory) (text : Bytes) :
    fs.node (startOf location text) = some .directory := by
  rw [startOf]
  split
  · exact fs.root
  · exact here

/-- What components come to from a directory is sound, and is where they lead, but for a link in the last
one that is not followed. -/
def Correct (fs : LinkedSystem) (last : Bool) (walk : Path → List Bytes → Option Ending) : Prop :=
  ∀ location names ending, fs.node location = some .directory → walk location names = some ending →
    Ending.Sound fs last ending ∧
      ((∀ text, fs.node ending.place ≠ some (.link text)) → fs.Leads location names ending.place)

theorem Correct.follow {fs : LinkedSystem} {last : Bool} {next : Path → List Bytes → Option Ending}
    (correct : fs.Correct last next) : fs.Correct last (fs.follow last next) := by
  intro location names ending here came
  induction names generalizing location with
  | nil =>
    obtain rfl := Option.some.inj came
    exact ⟨sound_reached here, fun _ => .here⟩
  | cons name rest ih =>
    rw [LinkedSystem.follow] at came
    by_cases dot : name = str "."
    · rw [if_pos dot] at came
      subst dot
      obtain ⟨sound, leads⟩ := ih location here came
      exact ⟨sound, fun plain => .stay (leads plain)⟩
    by_cases up : name = str ".."
    · rw [if_neg dot, if_pos up] at came
      subst up
      obtain ⟨sound, leads⟩ := ih location.dropLast (fs.dropLast_directory here) came
      exact ⟨sound, fun plain => .up (leads plain)⟩
    rw [if_neg dot, if_neg up] at came
    split at came
    · rename_i directory
      obtain ⟨sound, leads⟩ := ih (location ++ [name]) directory came
      exact ⟨sound, fun plain => .down dot up (by simp [directory]) (leads plain)⟩
    · rename_i text linked
      split_ifs at came with ends
      · obtain rfl := Option.some.inj came
        exact ⟨sound_named here (by simp [linked]) (by simp [ends.2]),
          fun plain => absurd linked (plain text)⟩
      · obtain ⟨sound, leads⟩ := correct _ _ _ (fs.startOf_directory here text) came
        exact ⟨sound, fun plain => .link dot up linked (leads plain)⟩
    · rename_i notDirectory notLink
      split_ifs at came with ends
      subst ends
      obtain rfl := Option.some.inj came
      exact ⟨sound_named here notDirectory fun _ text => notLink text,
        fun plain => .down dot up plain .here⟩

theorem namei_correct (fs : LinkedSystem) (last : Bool) (links : ℕ) :
    fs.Correct last (fs.namei last links) := by
  induction links with
  | zero => exact Correct.follow fun _ _ _ _ => nofun
  | succ links ih => exact ih.follow

/-! ## What is created and what is overwritten -/

/-- The place where a path string names something to create: in a directory that is there, nothing is
there by that name, and the system does not refuse. -/
def created (fs : LinkedSystem) (text : Bytes) (names : List Bytes) : Option Path :=
  match fs.namei false maxLinks [] names with
  | some (.named parent name) =>
    if fs.refuses fs.node text (parent ++ [name]) = false ∧ fs.node (parent ++ [name]) = none then
      some (parent ++ [name])
    else none
  | _ => none

/-- The place of the file that a path string names, in a directory that is there, whether it is there or
not, if the system does not refuse. -/
def opened (fs : LinkedSystem) (text : Bytes) (names : List Bytes) : Option Path :=
  match fs.namei true maxLinks [] names with
  | some (.named parent name) =>
    if fs.refuses fs.node text (parent ++ [name]) = false then some (parent ++ [name]) else none
  | _ => none

section Places

variable {fs : LinkedSystem} {text : Bytes} {names : List Bytes} {place : Path}

/-- What is created is named in a directory, where nothing is. -/
theorem created_eq_some_iff : fs.created text names = some place ↔
    ∃ parent name, fs.namei false maxLinks [] names = some (.named parent name) ∧
      (fs.refuses fs.node text (parent ++ [name]) = false ∧ fs.node (parent ++ [name]) = none) ∧
        parent ++ [name] = place := by
  rw [created]
  split
  · rename_i parent name came
    simp [came]
  · rename_i other
    simp only [reduceCtorEq, false_iff]
    rintro ⟨parent, name, came, -⟩
    exact other parent name came

/-- What is opened is named in a directory. -/
theorem opened_eq_some_iff : fs.opened text names = some place ↔
    ∃ parent name, fs.namei true maxLinks [] names = some (.named parent name) ∧
      fs.refuses fs.node text (parent ++ [name]) = false ∧ parent ++ [name] = place := by
  rw [opened]
  split
  · rename_i parent name came
    simp [came]
  · rename_i other
    simp only [reduceCtorEq, false_iff]
    rintro ⟨parent, name, came, -⟩
    exact other parent name came

theorem node_created (makes : fs.created text names = some place) : fs.node place = none := by
  obtain ⟨parent, name, -, ⟨-, absent⟩, rfl⟩ := created_eq_some_iff.mp makes
  exact absent

theorem node_opened (opens : fs.opened text names = some place) (link : Bytes) :
    fs.node place ≠ some (.link link) := by
  obtain ⟨parent, name, came, -, rfl⟩ := opened_eq_some_iff.mp opens
  exact (fs.namei_correct true maxLinks _ _ _ fs.root came).1.followed rfl link

theorem leads_created (makes : fs.created text names = some place) : fs.Leads [] names place := by
  obtain ⟨parent, name, came, ⟨-, absent⟩, rfl⟩ := created_eq_some_iff.mp makes
  exact (fs.namei_correct false maxLinks _ _ _ fs.root came).2 (by simp [Ending.place, absent])

theorem leads_opened (opens : fs.opened text names = some place) : fs.Leads [] names place := by
  obtain ⟨parent, name, came, -, rfl⟩ := opened_eq_some_iff.mp opens
  obtain ⟨sound, leads⟩ := fs.namei_correct true maxLinks _ _ _ fs.root came
  exact leads (sound.followed rfl)

end Places

theorem node_put_named {fs : LinkedSystem} {last : Bool} {names : List Bytes} {parent : Path}
    {name : Bytes} (came : fs.namei last maxLinks [] names = some (.named parent name)) (node : Node)
    (query : Path) : (fs.put (parent ++ [name]) node).node query =
      if query = parent ++ [name] then some node else fs.node query := by
  have sound := (fs.namei_correct last maxLinks _ _ _ fs.root came).1
  apply node_put
  · simp
  · rw [List.dropLast_concat]
    exact sound.parent _ _ rfl
  · exact sound.other _ _ rfl

theorem node_makeDirectory {fs after : LinkedSystem} {text : Bytes} {names : List Bytes}
    (made : fs.makeDirectory text names = some after) (query : Path) : after.node query =
      if fs.created text names = some query then some .directory else fs.node query := by
  rw [makeDirectory] at made
  rw [created]
  split at made
  · rename_i location came
    split_ifs at made
    obtain rfl := Option.some.inj made
    simp [came]
  · rename_i parent name came
    simp only [came]
    split_ifs at made with refused absent exists_
    · obtain rfl := Option.some.inj made
      rw [node_put_named came]
      simp [refused, absent, eq_comm]
    · obtain rfl := Option.some.inj made
      simp [absent]
  · cases made

theorem node_writeFile (fs : LinkedSystem) (base : Path) (text content : Bytes) (query : Path) :
    (fs.writeFile base text content).node query =
      if fs.opened text (behind base text (linkNames (cString text))) = some query then
        some (.file content)
      else fs.node query := by
  rw [writeFile, opened]
  split
  · rename_i parent name came
    by_cases refused : fs.refuses fs.node text (parent ++ [name]) = true
    · simp [refused]
    · rw [if_neg refused, node_put_named came]
      simp [refused, eq_comm]
  · simp

/-- No call here makes a link or replaces one. -/
theorem sameLinks_makeDirectory {fs after : LinkedSystem} {text : Bytes} {names : List Bytes}
    (made : fs.makeDirectory text names = some after) : fs.SameLinks after := by
  intro place link
  rw [node_makeDirectory made]
  split_ifs with makes
  · simp [node_created makes]
  · rfl

theorem sameLinks_writeFile (fs : LinkedSystem) (base : Path) (text content : Bytes) :
    fs.SameLinks (fs.writeFile base text content) := by
  intro place link
  rw [node_writeFile]
  split_ifs with opens
  · simp [node_opened opens link]
  · rfl

/-- Nothing is below a place where nothing is. -/
theorem node_below (fs : LinkedSystem) {place : Path} (absent : fs.node place = none) (below : Path) :
    fs.node (place ++ below) = none := by
  induction below using List.reverseRecOn with
  | nil => rwa [List.append_nil]
  | append_singleton front name ih =>
    by_contra present
    rw [← List.append_assoc] at present
    cases ih.symm.trans (fs.closed _ name present)

theorem follow_reached {fs : LinkedSystem} {next other : Path → List Bytes → Option Ending}
    {location place : Path} {names : List Bytes}
    (later : ∀ location names, next location names = some (.reached place) →
      other location names = some (.reached place))
    (came : fs.follow false next location names = some (.reached place)) :
    fs.follow true other location names = some (.reached place) := by
  induction names generalizing location with
  | nil => exact came
  | cons name rest ih =>
    rw [follow] at came ⊢
    by_cases dot : name = str "."
    · rw [if_pos dot] at came ⊢
      exact ih came
    by_cases up : name = str ".."
    · rw [if_neg dot, if_pos up] at came ⊢
      exact ih came
    rw [if_neg dot, if_neg up] at came ⊢
    split at came
    · exact ih came
    · split_ifs at came
      · cases Option.some.inj came
      · rw [if_neg (by simp)]
        exact later _ _ came
    · split_ifs at came
      cases Option.some.inj came

/-- A directory that is reached without following a link in the last component is reached in any case. -/
theorem namei_reached {fs : LinkedSystem} {links : ℕ} {location place : Path} {names : List Bytes}
    (came : fs.namei false links location names = some (.reached place)) :
    fs.namei true links location names = some (.reached place) := by
  induction links generalizing location names with
  | zero => exact follow_reached (fun _ _ impossible => impossible) came
  | succ links ih => exact follow_reached (fun _ _ => ih) came

/-- A directory that is made where nothing was is made at one place. -/
theorem created_of_makeDirectory {fs after : LinkedSystem} {text : Bytes} {names : List Bytes}
    (absent : fs.lookup names = none) (made : fs.makeDirectory text names = some after) :
    ∃ home, fs.created text names = some home := by
  rw [makeDirectory] at made
  rw [created]
  split at made
  · rename_i location came
    rw [lookup, namei_reached came] at absent
    cases absent
  · rename_i came
    simp only [came]
    split_ifs at made with refused new exists_
    · exact ⟨_, if_pos ⟨by simpa using refused, new⟩⟩
    · rw [exists_] at absent
      cases absent
  · cases made

end LinkedSystem

end DpcppTrace.Foundation
