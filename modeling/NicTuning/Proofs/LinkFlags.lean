import NicTuning.Proofs.Journal
import NicTuning.Proofs.Splitting

/-!
# Flags of a link

The flags of a link stand between the first opening angle bracket of a report and the next closing
one, with commas between them. Reading them undoes printing them, so a flag counts only as a whole,
and nothing that stands before or behind the brackets does.

Main statement: a device is up exactly if UP is one of the flags that are shown, and a report that
shows none is refused, for want of the bracket that it lacks.
-/
namespace NicTuning

namespace Report

/-- Flags as they are printed, between angle brackets and with commas between them. -/
def flagLine (front : String) (flags : List String) (rest : String) : String :=
  front ++ "<" ++ ",".intercalate flags ++ ">" ++ rest

/-- The flags that a report shows first. -/
structure Shows (report : String) (flags : List String) : Prop where
  nonempty : flags ≠ []
  noComma : ∀ flag ∈ flags, ',' ∉ flag.toList
  noBracket : ∀ flag ∈ flags, '>' ∉ flag.toList
  printed : ∃ front rest, report = flagLine front flags rest ∧ '<' ∉ front.toList

/-- The fault of a report in which no bracket opens. -/
def unopenedFault (report : String) : Fault :=
  .parse ("no link flags in '" ++ Text.trim report ++ "'")

/-- The fault of a report in which no bracket closes. -/
def unclosedFault (report : String) : Fault :=
  .parse ("unterminated link flags in '" ++ Text.trim report ++ "'")

/-- No bracket closes behind the first one that opens. -/
def IsUnclosed (report : String) : Prop :=
  ∃ front rest, report = front ++ "<" ++ rest ∧ '<' ∉ front.toList ∧ '>' ∉ rest.toList

variable {report front inside rest : String} {flags : List String}

theorem dropWhile_front (h : '<' ∉ front.toList) (rest : String) :
    (front ++ "<" ++ rest).toList.dropWhile (· != '<') = '<' :: rest.toList := by
  simpa using Text.dropWhile_bne h rest.toList

theorem linkFlags_of_not_mem (h : '<' ∉ report.toList) :
    linkFlags report = .error (unopenedFault report) := by
  unfold linkFlags
  rw [Text.dropWhile_bne_of_not_mem h]
  rfl

theorem linkFlags_of_isUnclosed (h : IsUnclosed report) :
    linkFlags report = .error (unclosedFault report) := by
  obtain ⟨front, rest, rfl, hfront, hrest⟩ := h
  unfold linkFlags unclosedFault
  rw [dropWhile_front hfront]
  simp [hrest]

theorem linkFlags_of_closed (hfront : '<' ∉ front.toList) (hinside : '>' ∉ inside.toList)
    (rest : String) : linkFlags (front ++ "<" ++ inside ++ ">" ++ rest) =
      .ok ((inside.toList.splitOn ',').map String.ofList) := by
  have hassoc : front ++ "<" ++ inside ++ ">" ++ rest =
      front ++ "<" ++ (inside ++ ">" ++ rest) := by
    simp [String.append_assoc]
  have htake : (inside ++ ">" ++ rest).toList.takeWhile (· != '>') = inside.toList := by
    simpa using Text.takeWhile_bne hinside rest.toList
  unfold linkFlags
  rw [hassoc, dropWhile_front hfront]
  dsimp only
  rw [if_pos (by simp), htake]

theorem linkFlags_flagLine (hfront : '<' ∉ front.toList) (hne : flags ≠ [])
    (hcomma : ∀ flag ∈ flags, ',' ∉ flag.toList) (hbracket : ∀ flag ∈ flags, '>' ∉ flag.toList)
    (rest : String) : linkFlags (flagLine front flags rest) = .ok flags := by
  have hinside : '>' ∉ (",".intercalate flags).toList := by
    rw [Text.mem_toList_intercalate (by decide)]
    rintro ⟨flag, hflag, hmem⟩
    exact hbracket flag hflag hmem
  unfold flagLine
  rw [linkFlags_of_closed hfront hinside, Text.splitOn_intercalate hne hcomma]

/-- A report has no bracket that opens, or none that closes behind the first one, or something
between two brackets. -/
theorem report_cases (report : String) : '<' ∉ report.toList ∨ IsUnclosed report ∨
    ∃ front inside rest, report = front ++ "<" ++ inside ++ ">" ++ rest ∧
      '<' ∉ front.toList ∧ '>' ∉ inside.toList := by
  by_cases hopen : '<' ∈ report.toList
  · obtain ⟨front, behind, rfl, hfront⟩ := Text.exists_of_mem hopen
    by_cases hclose : '>' ∈ behind.toList
    · obtain ⟨inside, rest, rfl, hinside⟩ := Text.exists_of_mem hclose
      refine .inr (.inr ⟨front, inside, rest, ?_, hfront, hinside⟩)
      simp [String.append_assoc]
    · exact .inr (.inl ⟨front, behind, rfl, hfront, hclose⟩)
  · exact .inl hopen

/-- The flags that are read are those that are shown. -/
theorem linkFlags_eq_ok_iff : linkFlags report = .ok flags ↔ Shows report flags := by
  constructor
  · intro h
    obtain hnone | hunclosed | ⟨front, inside, rest, rfl, hfront, hinside⟩ := report_cases report
    · rw [linkFlags_of_not_mem hnone] at h
      cases h
    · rw [linkFlags_of_isUnclosed hunclosed] at h
      cases h
    · rw [linkFlags_of_closed hfront hinside] at h
      cases h
      exact
        { nonempty := by simp [List.splitOn_ne_nil]
          noComma := by
            rw [List.forall_mem_map]
            intro piece hpiece
            simpa using Text.not_mem_of_mem_splitOn hpiece
          noBracket := by
            intro flag hflag hmem
            apply hinside
            rw [← Text.intercalate_splitOn inside, Text.mem_toList_intercalate (by decide)]
            exact ⟨flag, hflag, hmem⟩
          printed := ⟨front, rest, by rw [flagLine, Text.intercalate_splitOn], hfront⟩ }
  · intro h
    obtain ⟨front, rest, rfl, hfront⟩ := h.printed
    exact linkFlags_flagLine hfront h.nonempty h.noComma h.noBracket rest

theorem linkIsUp_of_shows (h : Shows report flags) :
    linkIsUp report = .ok (decide ("UP" ∈ flags)) := by
  unfold linkIsUp
  rw [linkFlags_eq_ok_iff.2 h]
  simp [Except.map]

theorem linkIsUp_of_not_mem (h : '<' ∉ report.toList) :
    linkIsUp report = .error (unopenedFault report) := by
  rw [linkIsUp, linkFlags_of_not_mem h]
  rfl

theorem linkIsUp_of_isUnclosed (h : IsUnclosed report) :
    linkIsUp report = .error (unclosedFault report) := by
  rw [linkIsUp, linkFlags_of_isUnclosed h]
  rfl

/-- A report is refused for want of a bracket, or tells whether UP is one of its flags. -/
theorem linkIsUp_cases (report : String) :
    ('<' ∉ report.toList ∧ linkIsUp report = .error (unopenedFault report)) ∨
    (IsUnclosed report ∧ linkIsUp report = .error (unclosedFault report)) ∨
    ∃ flags, Shows report flags ∧ linkIsUp report = .ok (decide ("UP" ∈ flags)) := by
  obtain hnone | hunclosed | ⟨front, inside, rest, rfl, hfront, hinside⟩ := report_cases report
  · exact .inl ⟨hnone, linkIsUp_of_not_mem hnone⟩
  · exact .inr (.inl ⟨hunclosed, linkIsUp_of_isUnclosed hunclosed⟩)
  · have hshows := linkFlags_eq_ok_iff.1 (linkFlags_of_closed hfront hinside rest)
    exact .inr (.inr ⟨_, hshows, linkIsUp_of_shows hshows⟩)

theorem linkIsUp_eq_ok_iff {up : Bool} : linkIsUp report = .ok up ↔
    ∃ flags, Shows report flags ∧ (up = true ↔ "UP" ∈ flags) := by
  constructor
  · intro h
    obtain ⟨-, hresult⟩ | ⟨-, hresult⟩ | ⟨flags, hshows, hresult⟩ := linkIsUp_cases report
    · cases h.symm.trans hresult
    · cases h.symm.trans hresult
    · cases h.symm.trans hresult
      exact ⟨flags, hshows, decide_eq_true_iff⟩
  · rintro ⟨flags, hshows, hup⟩
    have heq : decide ("UP" ∈ flags) = up := Bool.eq_iff_iff.2 (decide_eq_true_iff.trans hup.symm)
    rw [linkIsUp_of_shows hshows, heq]

theorem linkIsUp_eq_error_iff {fault : Fault} : linkIsUp report = .error fault ↔
    ('<' ∉ report.toList ∧ fault = unopenedFault report) ∨
      (IsUnclosed report ∧ fault = unclosedFault report) := by
  constructor
  · intro h
    obtain ⟨hnone, hresult⟩ | ⟨hunclosed, hresult⟩ | ⟨flags, -, hresult⟩ := linkIsUp_cases report
    · cases h.symm.trans hresult
      exact .inl ⟨hnone, rfl⟩
    · cases h.symm.trans hresult
      exact .inr ⟨hunclosed, rfl⟩
    · cases h.symm.trans hresult
  · rintro (⟨hnone, rfl⟩ | ⟨hunclosed, rfl⟩)
    · exact linkIsUp_of_not_mem hnone
    · exact linkIsUp_of_isUnclosed hunclosed

/-- Flags that are printed are shown; no flags at all are shown as one that is empty. -/
theorem linkIsUp_flagLine (hfront : '<' ∉ front.toList)
    (hflags : ∀ flag ∈ flags, ',' ∉ flag.toList ∧ '>' ∉ flag.toList) (rest : String) :
    linkIsUp (flagLine front flags rest) = .ok (decide ("UP" ∈ flags)) := by
  by_cases hne : flags = []
  · subst hne
    have hshows : Shows (flagLine front [] rest) [""] :=
      { nonempty := by simp
        noComma := by simp
        noBracket := by simp
        printed := ⟨front, rest, rfl, hfront⟩ }
    rw [linkIsUp_of_shows hshows]
    decide
  · apply linkIsUp_of_shows
    exact
      { nonempty := hne
        noComma := fun flag hflag => (hflags flag hflag).1
        noBracket := fun flag hflag => (hflags flag hflag).2
        printed := ⟨front, rest, rfl, hfront⟩ }

end Report

/-- A device that is controlled by commands is up if its report says so. -/
theorem Device.isUp_of_query {d : Device} (hd : d.control = .commands) {b : Bench} {report : String}
    (hq : (d.query ("ip -o link show dev " ++ d.name) b).1 = .ok report) :
    (d.isUp b).1 = Report.linkIsUp report := by
  unfold isUp
  rw [hd]
  dsimp only
  rw [ActionM.bind_apply]
  rcases h : d.query ("ip -o link show dev " ++ d.name) b with ⟨result, b'⟩
  rw [h] at hq
  cases hq
  rfl

namespace Report

/-- A report is refused exactly if no angle bracket opens in it or none closes behind the first one
that does. Any other report shows flags, as if it were printed with them, and the link is up exactly
if UP is one of them, whatever stands before and behind the brackets and in the other flags. So it is
for every list of flags that is printed, and for the device that was asked about. -/
theorem linkIsUp_tells_shown_flag :
    (∀ report fault, linkIsUp report = .error fault ↔
      ('<' ∉ report.toList ∧ fault = unopenedFault report) ∨
        (IsUnclosed report ∧ fault = unclosedFault report)) ∧
    (∀ report up, linkIsUp report = .ok up ↔
      ∃ flags, Shows report flags ∧ (up = true ↔ "UP" ∈ flags)) ∧
    (∀ front flags rest, '<' ∉ front.toList →
      (∀ flag ∈ flags, ',' ∉ flag.toList ∧ '>' ∉ flag.toList) →
      linkIsUp (flagLine front flags rest) = .ok (decide ("UP" ∈ flags))) ∧
    ∀ (d : Device) (b : Bench) (report : String), d.control = .commands →
      (d.query ("ip -o link show dev " ++ d.name) b).1 = .ok report →
      (d.isUp b).1 = linkIsUp report := by
  refine ⟨?_, ?_, ?_, ?_⟩
  · intro report fault
    exact linkIsUp_eq_error_iff
  · intro report up
    exact linkIsUp_eq_ok_iff
  · intro front flags rest hfront hflags
    exact linkIsUp_flagLine hfront hflags rest
  · intro d b report hd hq
    exact Device.isUp_of_query hd hq

/-- A host that prints of any link that its carrier is up, but not that it is. -/
def carrierBench : Bench :=
  { Bench.quiet with
    answer := fun _ _ _ => .ok (.ok
      (flagLine "3: été0 UP: " ["BROADCAST", "MULTICAST", "LOWER_UP"] " mtu 1500 state UP\n")) }

theorem linkIsUp_tells_lower_flag_apart :
    '<' ∉ "3: été0 UP: ".toList ∧
    (∀ flag ∈ ["BROADCAST", "MULTICAST", "LOWER_UP"], ',' ∉ flag.toList ∧ '>' ∉ flag.toList) ∧
    (Device.isUp ⟨"été0", ⟨"host1", "host1"⟩, ⟨"host1", "host1"⟩, none, .commands⟩ carrierBench).1 =
      .ok false := by
  have hfront : '<' ∉ "3: été0 UP: ".toList := by decide
  have hflags : ∀ flag ∈ ["BROADCAST", "MULTICAST", "LOWER_UP"],
      ',' ∉ flag.toList ∧ '>' ∉ flag.toList := by
    decide
  obtain ⟨-, -, hprinted, hdevice⟩ := linkIsUp_tells_shown_flag
  refine ⟨hfront, hflags, ?_⟩
  exact (hdevice _ _ _ rfl rfl).trans (hprinted _ _ " mtu 1500 state UP\n" hfront hflags)

end Report

end NicTuning
