import TexSymbols.Proofs.Reader.Pulls

/-!
# What a reading gives, group by group

The pulls of a reader said as a function of the groups of its stream, without a cursor.

* `ItemGroup.attributeBlocks` — the blocks that are taken as attributes when a group is read.
* `Transcript` — what reading groups gives; `Progress.take` — reads them up to a number of events.
* `Reader.matches_take`, `Catalogue.matches_transcript` — a reader gives what this function says.
* `take_eq_of_lt` — pulls that reach the end; `take_append_of_error`, `take_append_of_ok` — groups
  of two lists, one behind the other.
-/

namespace TexSymbols

open ItemGroup

/-! ## Reading as a function -/

/-- The blocks that are taken as attributes when the group is read: its run, unless the head is
refused before the run is looked at. -/
def ItemGroup.attributeBlocks (p : Progress) (g : ItemGroup) : List Block :=
  match g.first with
  | .ok (.definition ..) => if p.current.isSome then g.run else []
  | .ok (.block b) => if b.tag = Tag.declares ∧ (sectionHead? b.content).isSome then g.run else []
  | _ => []

/-- What reading groups gives. -/
structure Transcript where
  events : List Event
  error : Option ReadError
  /-- The tagged blocks that were taken as attributes, in order. -/
  attributeBlocks : List Block
  progress : Progress

/-- The transcript that begins with a group read in `p` without an error. -/
def Transcript.prepend (t : Transcript) (p : Progress) (g : ItemGroup) : Transcript :=
  { t with
    events := g.event?.toList ++ t.events
    attributeBlocks := g.attributeBlocks p ++ t.attributeBlocks }

/-- The transcript of one list of groups, and behind it that of another one. -/
def Transcript.append (s t : Transcript) : Transcript :=
  { t with
    events := s.events ++ t.events
    attributeBlocks := s.attributeBlocks ++ t.attributeBlocks }

namespace Progress

/-- Read groups up to the given number of events, the first error, or the end. -/
def take : List ItemGroup → Nat → Progress → Transcript
  | [], _, p => ⟨[], none, [], p⟩
  | _ :: _, 0, p => ⟨[], none, [], p⟩
  | g :: groups, n + 1, p =>
    match g.read p with
    | (some e, p') => ⟨[], some e, g.attributeBlocks p, p'⟩
    | (none, p') => (take groups (n + 1 - g.event?.toList.length) p').prepend p g

variable {p p' : Progress} {g : ItemGroup} {groups later : List ItemGroup} {n m : Nat}

@[simp] theorem take_zero (groups : List ItemGroup) (p : Progress) :
    take groups 0 p = ⟨[], none, [], p⟩ := by
  cases groups <;> rfl

theorem take_cons_of_error {e : ReadError} (h : g.read p = (some e, p')) :
    take (g :: groups) (n + 1) p = ⟨[], some e, g.attributeBlocks p, p'⟩ := by
  rw [take, h]

theorem take_cons_of_ok (h : g.read p = (none, p')) :
    take (g :: groups) (n + 1) p =
      (take groups (n + 1 - g.event?.toList.length) p').prepend p g := by
  rw [take, h]

theorem length_event?_le (g : ItemGroup) : g.event?.toList.length ≤ 1 := by
  cases g.event? <;> simp

end Progress

/-! ## A reader does the same -/

/-- A reading gives what a transcript says. -/
structure Reading.Matches (t : Reading) (s : Transcript) : Prop where
  events_eq : t.events = s.events
  error_eq : t.error = s.error
  progress_eq : t.reader.progress = s.progress

theorem Reading.Matches.catalogue_eq {t : Reading} {s : Transcript} (h : t.Matches s) :
    t.reader.catalogue = s.progress.catalogue :=
  congrArg Progress.catalogue h.progress_eq

namespace Reader

variable {r r' : Reader}

theorem matches_of_pull {n : Nat} {outcome : Option (Except ReadError Event)}
    (h : Pull r outcome r')
    (hrest : r'.failed = false → (r'.take n).Matches (Progress.take r'.groups n r'.progress)) :
    (thenTake n (outcome, r')).Matches (Progress.take r.groups (n + 1) r.progress) := by
  induction h with
  | finished hgroups =>
    rw [hgroups]
    exact ⟨rfl, rfl, rfl⟩
  | skipped hgroups hread hevent _ ih =>
    rw [hgroups, Progress.take_cons_of_ok hread, hevent]
    obtain ⟨hevents, herror, hprogress⟩ := ih hrest
    exact ⟨by rw [hevents, Transcript.prepend, hevent]; rfl, herror, hprogress⟩
  | event hgroups hread hevent hfailed =>
    rw [hgroups, Progress.take_cons_of_ok hread, hevent]
    obtain ⟨hevents, herror, hprogress⟩ := hrest hfailed
    exact ⟨by rw [Transcript.prepend, hevent, thenTake, hevents]; rfl, herror, hprogress⟩
  | failed hgroups hread =>
    rw [hgroups, Progress.take_cons_of_error hread]
    exact ⟨rfl, rfl, rfl⟩

/-- **The pulls of a reader read the groups of its stream.** -/
theorem matches_take (n : Nat) (hr : r.failed = false) :
    (r.take n).Matches (Progress.take r.groups n r.progress) := by
  induction n generalizing r with
  | zero =>
    rw [Progress.take_zero]
    exact ⟨rfl, rfl, rfl⟩
  | succ n ih =>
    rw [take_succ]
    exact matches_of_pull (pull_next hr) ih

end Reader

namespace Catalogue

/-- What reading a text gives, with at most `pulls` pulls if there is a limit. -/
def transcript (c : Catalogue) (file text : Text) (pulls : Option Nat) : Transcript :=
  Progress.take (ofItems (Token.stream file text))
    (pulls.getD ((Token.stream file text).length + 1)) ⟨c, none⟩

theorem matches_transcript (c : Catalogue) (file text : Text) (pulls : Option Nat) :
    (c.read file text pulls).Matches (c.transcript file text pulls) :=
  Reader.matches_take _ rfl

end Catalogue

/-! ## Reading to the end -/

namespace Progress

variable {p p' : Progress} {g : ItemGroup} {groups later : List ItemGroup} {n m : Nat}

/-- There is at most one event for each group, so more pulls than groups reach the end. -/
theorem take_eq_of_lt (hn : groups.length < n) (hm : groups.length < m) :
    take groups n p = take groups m p := by
  induction groups generalizing n m p with
  | nil => rfl
  | cons g groups ih =>
    rw [List.length_cons] at hn hm
    obtain ⟨n, rfl⟩ := Nat.exists_eq_add_of_lt (Nat.zero_lt_of_lt hn)
    obtain ⟨m, rfl⟩ := Nat.exists_eq_add_of_lt (Nat.zero_lt_of_lt hm)
    have hevent := length_event?_le g
    rcases hread : g.read p with ⟨_ | e, p'⟩
    · rw [take_cons_of_ok hread, take_cons_of_ok hread, ih]
      · omega
      · omega
    · rw [take_cons_of_error hread, take_cons_of_error hread]

theorem length_events_take_le (groups : List ItemGroup) (n : Nat) (p : Progress) :
    (take groups n p).events.length ≤ groups.length := by
  induction groups generalizing n p with
  | nil => simp [take]
  | cons g groups ih =>
    cases n with
    | zero => simp
    | succ n =>
      rcases hread : g.read p with ⟨_ | e, p'⟩
      · rw [take_cons_of_ok hread, Transcript.prepend, List.length_append, List.length_cons]
        have hrest := ih (n + 1 - g.event?.toList.length) p'
        have hevent := length_event?_le g
        omega
      · rw [take_cons_of_error hread]
        simp

/-- Groups behind one that fails are not read. -/
theorem take_append_of_error {e : ReadError} (h : (take groups n p).error = some e)
    (later : List ItemGroup) : take (groups ++ later) n p = take groups n p := by
  induction groups generalizing n p with
  | nil => cases h
  | cons g groups ih =>
    rw [List.cons_append]
    cases n with
    | zero => rw [take_zero, take_zero]
    | succ n =>
      rcases hread : g.read p with ⟨_ | e, p'⟩
      · rw [take_cons_of_ok hread] at h ⊢
        rw [take_cons_of_ok hread, ih h]
      · rw [take_cons_of_error hread, take_cons_of_error hread]

/-- If there are pulls enough for the groups of the first list and none of them fails, the others
are read from where these end. -/
theorem take_append_of_ok (hn : groups.length < n) (h : (take groups n p).error = none)
    (later : List ItemGroup) :
    take (groups ++ later) n p = (take groups n p).append
      (take later (n - (take groups n p).events.length) (take groups n p).progress) := by
  induction groups generalizing n p with
  | nil => rfl
  | cons g groups ih =>
    rw [List.length_cons] at hn
    obtain ⟨n, rfl⟩ := Nat.exists_eq_add_of_lt (Nat.zero_lt_of_lt hn)
    have hevent := length_event?_le g
    rcases hread : g.read p with ⟨_ | e, p'⟩
    · have hcount : groups.length < 0 + n + 1 - g.event?.toList.length := by omega
      rw [take_cons_of_ok hread] at h
      rw [List.cons_append, take_cons_of_ok hread, take_cons_of_ok hread, ih hcount h]
      simp only [Transcript.prepend, Transcript.append, List.length_append, List.append_assoc,
        Nat.sub_sub]
    · rw [take_cons_of_error hread] at h
      cases h

end Progress

end TexSymbols
