import Almanac.Period.Resolve
import Almanac.Proofs.Chunk.Numbering
import Almanac.Proofs.Chunk.Partition
import Almanac.Proofs.Period.RoundTrip
import Mathlib.Logic.Function.Iterate

set_option autoImplicit false

/-!
# Moving by periods

A move by some periods arrives in the period that is found by stepping from one to the next as many
times.
-/

namespace Almanac

namespace Chunk

def following (chunk : Chunk) (settings : Settings) (first : Date) : Date :=
  (chunk.endOf first settings).plus 1

def preceding (chunk : Chunk) (settings : Settings) (first : Date) : Date :=
  chunk.beginningOf (first.minus 1) settings

/-- The first day of the period `n` steps on from one that starts on a day, or `-n` steps back. -/
def stepped (chunk : Chunk) (settings : Settings) : Int → Date → Date
  | .ofNat k => (chunk.following settings)^[k]
  | .negSucc k => (chunk.preceding settings)^[k + 1]

variable {chunk : Chunk} {settings : Settings} {number : Date → Int} {d x first : Date} {n : Int}

theorem following_serial (room : d.HasRoom 2000) :
    (chunk.following settings d).serial = (chunk.endOf d settings).serial + 1 := by
  have span := isSpan chunk settings (room.mono (show 1300 ≤ 2000 by decide))
  have endRoom := (span.hasRoom (room.mono (show (1 + 366 : Int) ≤ 2000 by decide))).2
  exact endRoom.plus_serial (by decide)

theorem isBeginningOf_following (chunk : Chunk) (settings : Settings) (room : d.HasRoom 2000) :
    chunk.isBeginningOf (chunk.following settings d) settings = true := by
  have serial := @following_serial chunk settings d room
  have span := isSpan chunk settings (room.mono (show 1300 ≤ 2000 by decide))
  have endRoom := (span.hasRoom (room.mono (show (1301 + 366 : Int) ≤ 2000 by decide))).2
  have nextSpan : chunk.IsSpan settings (chunk.following settings d) :=
    isSpan chunk settings (endRoom.near (by omega))
  exact isBeginningOf_iff.mpr (span.beginningOf_after nextSpan serial)

theorem before_serial (room : d.HasRoom 2000) : (d.minus 1).serial = d.serial - 1 :=
  room.minus_serial (by decide)

namespace Numbers

variable (numbers : chunk.Numbers settings number)

include numbers

theorem same_span (room : d.HasRoom 1300) (same : number x = number d) :
    chunk.beginningOf x settings = chunk.beginningOf d settings ∧
      chunk.endOf x settings = chunk.endOf d settings :=
  have within := (numbers.mem_iff room).mpr same
  (isSpan chunk settings room).same x within.1 within.2

theorem number_beginningOf (room : d.HasRoom 1300) :
    number (chunk.beginningOf d settings) = number d := by
  have span := isSpan chunk settings room
  exact (numbers.mem_iff room).mp ⟨Int.le_refl _, Int.le_trans span.first_le span.le_last⟩

theorem number_endOf (room : d.HasRoom 1300) : number (chunk.endOf d settings) = number d := by
  have span := isSpan chunk settings room
  exact (numbers.mem_iff room).mp ⟨Int.le_trans span.first_le span.le_last, Int.le_refl _⟩

theorem number_following (room : d.HasRoom 2000) :
    number (chunk.following settings d) = number d + 1 := by
  have serial := @following_serial chunk settings d room
  have ends := numbers.number_endOf (room.mono (by decide))
  rcases numbers.next serial with same | more
  next =>
    -- The day after the end of a period is none of its days.
    have within := ((numbers.mem_iff (room.mono (by decide))).mpr (same.trans ends)).2
    rw [Date.le_def] at within
    omega
  next => rw [more, ends]

theorem number_before (room : d.HasRoom 2000) (start : chunk.beginningOf d settings = d) :
    number (d.minus 1) = number d - 1 := by
  have serial := before_serial room
  rcases numbers.next (show d.serial = (d.minus 1).serial + 1 by omega) with same | more
  next =>
    have within := ((numbers.mem_iff (room.mono (by decide))).mpr same.symm).1
    rw [start, Date.le_def] at within
    omega
  next => omega

end Numbers

structure Leads (chunk : Chunk) (settings : Settings) (number : Date → Int) (start arrival : Date)
    (n : Int) : Prop where
  first : chunk.beginningOf arrival settings = arrival
  number : number arrival = number start + n
  near : start.serial - 366 * n.natAbs ≤ arrival.serial ∧
    arrival.serial ≤ start.serial + 366 * n.natAbs

theorem following_leads (numbers : chunk.Numbers settings number) (room : d.HasRoom 2000) :
    chunk.Leads settings number d (chunk.following settings d) 1 := by
  have serial := @following_serial chunk settings d room
  have span := isSpan chunk settings (room.mono (by decide : (1300 : Int) ≤ 2000))
  have short := span.short
  have ends := span.le_last
  have next := isBeginningOf_iff.mp (isBeginningOf_following chunk settings room)
  rw [Date.le_def] at ends
  exact ⟨next, numbers.number_following room, by omega⟩

theorem preceding_leads (numbers : chunk.Numbers settings number)
    (start : chunk.beginningOf d settings = d) (room : d.HasRoom 2000) :
    chunk.Leads settings number d (chunk.preceding settings d) (-1) := by
  have serial := before_serial room
  have beforeRoom : (d.minus 1).HasRoom 1300 := room.near (by omega)
  have span := isSpan chunk settings beforeRoom
  have short := span.short
  have begins := span.first_le
  rw [Date.le_def] at begins
  refine ⟨span.beginningOf_beginningOf, ?_, ?_⟩
  next =>
    rw [preceding, numbers.number_beginningOf beforeRoom, numbers.number_before room start]
    rfl
  next =>
    rw [preceding]
    omega

theorem iterate_leads {step : Date → Date} {sign : Int} (unit : sign = 1 ∨ sign = -1)
    (leads : ∀ {b : Date}, chunk.beginningOf b settings = b → b.HasRoom 2000 →
      chunk.Leads settings number b (step b) sign)
    (k : Nat) (start : chunk.beginningOf d settings = d) (room : d.HasRoom (2000 + 366 * k)) :
    chunk.Leads settings number d (step^[k] d) (sign * k) := by
  induction k generalizing d with
  | zero => exact ⟨start, by simp, by simp⟩
  | succ k ih =>
    have one := leads start (room.mono (by omega))
    have near := one.near
    have rest := ih one.first (room.near (by omega))
    have far := rest.near
    rw [Function.iterate_succ_apply]
    refine ⟨rest.first, ?_, ?_⟩
    next =>
      rw [rest.number, one.number]
      rcases unit with rfl | rfl <;> omega
    next => rcases unit with rfl | rfl <;> omega

theorem stepped_leads (numbers : chunk.Numbers settings number) (few : -400000 ≤ n ∧ n ≤ 400000)
    (start : chunk.beginningOf d settings = d) (room : d.HasRoom 146402000) :
    chunk.Leads settings number d (chunk.stepped settings n d) n := by
  cases n with
  | ofNat k =>
    rw [Int.ofNat_eq_natCast] at few
    have walk := iterate_leads (.inl rfl) (fun _ => following_leads numbers) k start
      (room.mono (by omega))
    rwa [Int.one_mul] at walk
  | negSucc k =>
    have walk := iterate_leads (.inr rfl) (preceding_leads numbers) (k + 1) start
      (room.mono (by omega))
    rwa [Int.neg_one_mul] at walk

section

variable (inRange : d.InRange)

include inRange

theorem beginningOf_hasRoom (chunk : Chunk) (settings : Settings) :
    (chunk.beginningOf d settings).HasRoom 146402000 := by
  have span := isSpan chunk settings (inRange.hasRoom (show 1300 ≤ 361000000 by decide))
  exact (span.hasRoom (inRange.hasRoom (by decide))).1

theorem beginningOf_start (chunk : Chunk) (settings : Settings) :
    chunk.beginningOf (chunk.beginningOf d settings) settings = chunk.beginningOf d settings :=
  (isSpan chunk settings (inRange.hasRoom (by decide))).beginningOf_beginningOf

theorem advance_stepped (numbers : chunk.Numbers settings number)
    (few : -400000 ≤ n ∧ n ≤ 400000) :
    chunk.beginningOf (chunk.advance d n) settings =
        chunk.stepped settings n (chunk.beginningOf d settings) ∧
      chunk.endOf (chunk.advance d n) settings =
        chunk.endOf (chunk.stepped settings n (chunk.beginningOf d settings)) settings := by
  have room := beginningOf_hasRoom inRange chunk settings
  have walk := stepped_leads numbers few (beginningOf_start inRange chunk settings) room
  have own := numbers.number_beginningOf (inRange.hasRoom (by decide))
  have near := walk.near
  have same := (numbers.advance inRange few).2.trans (own ▸ walk.number.symm)
  obtain ⟨begins, ends⟩ := numbers.same_span (room.near (by omega)) same
  exact ⟨begins.trans walk.first, ends⟩

theorem endOf_advance_before (numbers : chunk.Numbers settings number) :
    chunk.endOf (chunk.advance d (-1)) settings = (chunk.beginningOf d settings).minus 1 := by
  have room := beginningOf_hasRoom inRange chunk settings
  have start := beginningOf_start inRange chunk settings
  have own := numbers.number_beginningOf (inRange.hasRoom (by decide))
  have before := numbers.number_before (room.mono (by decide)) start
  have serial := before_serial (room.mono (show 2000 ≤ 146402000 by decide))
  have few : -400000 ≤ (-1 : Int) ∧ (-1 : Int) ≤ 400000 := by decide
  have same := (numbers.advance inRange few).2
  rw [← own, ← Int.sub_eq_add_neg, ← before] at same
  have beforeRoom : ((chunk.beginningOf d settings).minus 1).HasRoom 1300 := room.near (by omega)
  rw [(numbers.same_span beforeRoom same).2]
  exact (isSpan chunk settings (inRange.hasRoom (by decide))).endOf_before
    (isSpan chunk settings beforeRoom) serial

theorem beginningOf_advance_after (numbers : chunk.Numbers settings number) :
    chunk.beginningOf (chunk.advance d 1) settings = (chunk.endOf d settings).plus 1 := by
  have span := isSpan chunk settings (inRange.hasRoom (show 1300 ≤ 361000000 by decide))
  have few : -400000 ≤ (1 : Int) ∧ (1 : Int) ≤ 400000 := by decide
  have walk := (advance_stepped inRange numbers few).1
  have whole := (span.same _ (Int.le_refl _) (Int.le_trans span.first_le span.le_last)).2
  rw [walk, ← whole]
  rfl

theorem biweek_advance_beyond (few : -400000 ≤ n ∧ n ≤ 400000) :
    (0 < n → biweek.endOf d settings < biweek.advance d n) ∧
      (n < 0 → biweek.advance d n < biweek.beginningOf d settings) := by
  have room := inRange.inland.hasRoom
  have bounds := inRange.serial_bounds
  have first := @beginningOf_biweek settings d (room.mono (by decide))
  have last := @endOf_biweek settings d (room.mono (by decide))
  have move := biweek_advance_serial inRange few
  rw [Date.lt_def, Date.lt_def]
  omega

end

end Chunk

namespace Spec

def relativeText (word : String) (chunk : Chunk) : List Char :=
  word.toList ++ '_' :: chunk.name.toList

theorem read_relativeText {word : String} {offset : Int}
    (relation : (Text.lower word.toList, offset) ∈ Writing.relations) (chunk : Chunk) :
    Spec.read (relativeText word chunk) = .ok ⟨.relative chunk offset, none⟩ := by
  have name : Writing.NamesChunk chunk (Text.lower chunk.name.toList) :=
    .inl (by cases chunk <;> rfl)
  have documented : (Period.relative chunk offset).Documented := by
    have offsets : ∀ r ∈ Writing.relations, r.2 = -1 ∨ r.2 = 0 ∨ r.2 = 1 := by decide
    exact offsets _ relation
  have link : Writing.IsLink ['_'] := .inr (.inr rfl)
  exact Period.read_of_written (.relative relation link name) documented

theorem resolve_relativeText {word : String} {offset : Int}
    (relation : (Text.lower word.toList, offset) ∈ Writing.relations) (chunk : Chunk)
    (edge : Edge) (today : Date) (settings : Settings) :
    resolveText (relativeText word chunk) edge today settings =
      .ok (some (Period.chunkEdge chunk (chunk.advance today offset) settings edge)) := by
  rw [resolveText, read_relativeText relation chunk]
  rfl

end Spec

namespace Chunk

/-- A move by `n` periods, other than biweeks, arrives in the period that is `n` steps on, and the
periods called last, this and next follow one another. A move by biweeks leaves the biweek of the
day in the direction of the move. -/
theorem advance_counts_spans (chunk : Chunk) (settings : Settings) {d : Date}
    (inRange : d.InRange) {n : Int} (few : -400000 ≤ n ∧ n ≤ 400000) :
    (chunk ≠ .biweek →
      chunk.beginningOf (chunk.advance d n) settings =
          chunk.stepped settings n (chunk.beginningOf d settings) ∧
      chunk.endOf (chunk.advance d n) settings =
          chunk.endOf (chunk.stepped settings n (chunk.beginningOf d settings)) settings ∧
      Spec.resolveText (Spec.relativeText "last" chunk) .last d settings =
          .ok (some ((chunk.beginningOf d settings).minus 1)) ∧
      Spec.resolveText (Spec.relativeText "this" chunk) .first d settings =
          .ok (some (chunk.beginningOf d settings)) ∧
      Spec.resolveText (Spec.relativeText "this" chunk) .last d settings =
          .ok (some (chunk.endOf d settings)) ∧
      Spec.resolveText (Spec.relativeText "next" chunk) .first d settings =
          .ok (some ((chunk.endOf d settings).plus 1))) ∧
    (chunk = .biweek →
      (0 < n → chunk.endOf d settings < chunk.advance d n) ∧
      (n < 0 → chunk.advance d n < chunk.beginningOf d settings)) := by
  constructor
  next =>
    intro other
    obtain ⟨number, numbers⟩ := exists_numbers settings other
    obtain ⟨begins, ends⟩ := advance_stepped inRange numbers few
    have last := @Spec.resolve_relativeText "last" (-1) (by decide) chunk
    have this := @Spec.resolve_relativeText "this" 0 (by decide) chunk
    have next := @Spec.resolve_relativeText "next" 1 (by decide) chunk
    rw [last, this, this, next, advance_zero]
    refine ⟨begins, ends, ?_, rfl, rfl, ?_⟩
    next => exact congrArg (Except.ok ∘ some) (endOf_advance_before inRange numbers)
    next => exact congrArg (Except.ok ∘ some) (beginningOf_advance_after inRange numbers)
  next =>
    rintro rfl
    exact biweek_advance_beyond inRange few

-- Three half months from January 31, by way of February 29, lead to the first half of March. The
-- biweek of 2009-12-30 is a single week.
theorem advance_counts_spans_short_month :
    (Date.on 2012 1 31).InRange ∧
      semimonth.advance (Date.on 2012 1 31) 3 = Date.on 2012 3 14 ∧
      semimonth.beginningOf (Date.on 2012 3 14) {} =
        semimonth.stepped {} 3 (semimonth.beginningOf (Date.on 2012 1 31) {}) ∧
      Spec.resolveText "last_semimonth".toList .last (Date.on 2012 1 31) {} =
        .ok (some (Date.on 2012 1 15)) ∧
      biweek.endOf (Date.on 2009 12 30) {} = Date.on 2010 1 3 ∧
      Date.on 2010 1 3 < biweek.advance (Date.on 2009 12 30) 1 := by
  have inRange : (Date.on 2012 1 31).InRange := by decide
  have arrival : semimonth.advance (Date.on 2012 1 31) 3 = Date.on 2012 3 14 := by decide
  have short : biweek.endOf (Date.on 2009 12 30) {} = Date.on 2010 1 3 := by decide
  have few : -400000 ≤ (3 : Int) ∧ (3 : Int) ≤ 400000 := by decide
  obtain ⟨begins, -, last, -⟩ :=
    (advance_counts_spans semimonth {} inRange few).1 (by decide)
  have beyond := ((advance_counts_spans biweek {} (show (Date.on 2009 12 30).InRange by decide)
    (show -400000 ≤ (1 : Int) ∧ (1 : Int) ≤ 400000 by decide)).2 rfl).1 (by decide)
  rw [arrival] at begins
  rw [short] at beyond
  have dayBefore :
      (semimonth.beginningOf (Date.on 2012 1 31) {}).minus 1 = Date.on 2012 1 15 := by decide
  rw [dayBefore] at last
  exact ⟨inRange, arrival, begins, last, short, beyond⟩

end Chunk

end Almanac
