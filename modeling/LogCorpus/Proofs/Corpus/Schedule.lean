/-
Workers in any order.

An occurrence is out of the way of another one if nothing is done for it at a place that
the other one reads or passes.  Where this is so for all occurrences of a list, what is
done for each of them is what a worker alone on the disk does, whatever is done for the
others in between.  So every schedule ends like the run in the order of the list.
-/
import LogCorpus.Proofs.Corpus.Confinement
import LogCorpus.Proofs.Corpus.Worker

namespace LogCorpus

namespace Corpus

/-- What is done for an occurrence is done at no place that another one reads or passes:
its record is no place on the way of the other's two records, and no directory on its way
that has to be made is on the way of the record that the other one reads. -/
structure OutOfWay (source target : Corpus) (disk : Disk)
    (item other : Occurrence × String) : Prop where
  goal_ne : ∀ place ∈ disk.visits (target.resolve other.2),
    disk.goal (target.resolve item.2) ≠ .ok place
  source_apart : ∀ place ∈ disk.visits (source.resolve other.1.graphPath),
    disk.goal (target.resolve item.2) ≠ .ok place ∧
      (place ∈ disk.visits (target.resolve item.2) → disk.find? place ≠ none)

instance (source target : Corpus) (disk : Disk) (item other : Occurrence × String) :
    Decidable (OutOfWay source target disk item other) :=
  decidable_of_iff
    ((∀ place ∈ disk.visits (target.resolve other.2),
        disk.goal (target.resolve item.2) ≠ .ok place) ∧
      ∀ place ∈ disk.visits (source.resolve other.1.graphPath),
        disk.goal (target.resolve item.2) ≠ .ok place ∧
          (place ∈ disk.visits (target.resolve item.2) → disk.find? place ≠ none))
    ⟨fun ⟨hgoal, hsource⟩ => ⟨hgoal, hsource⟩, fun ⟨hgoal, hsource⟩ => ⟨hgoal, hsource⟩⟩

/-- Occurrences with records that end in a name, each out of the way of all others. -/
structure Independent (source target : Corpus) (disk : Disk)
    (items : List (Occurrence × String)) : Prop where
  working : disk.find? disk.working = some .directory
  endsInName : ∀ item ∈ items, endsInName item.2
  outOfWay : items.Pairwise fun item other =>
    OutOfWay source target disk item other ∧ OutOfWay source target disk other item

/-- The work on each occurrence is what a worker alone reaches with as many goes, and the
disk has the changes of all of these. -/
structure Sums (source target : Corpus) (disk : Disk) (items : List (Occurrence × String))
    (counts : Nat → Nat) (excising : Excising) : Prop where
  working_eq : excising.disk.working = disk.working
  work_eq : ∀ place item, items[place]? = some item →
    excising.work place = (workAlone source target item disk (counts place)).1
  find?_of_changed : ∀ place item, items[place]? = some item → ∀ found,
    (workAlone source target item disk (counts place)).2.find? found ≠ disk.find? found →
      excising.disk.find? found =
        (workAlone source target item disk (counts place)).2.find? found
  find?_of_unchanged : ∀ found, (∀ place item, items[place]? = some item →
    (workAlone source target item disk (counts place)).2.find? found = disk.find? found) →
      excising.disk.find? found = disk.find? found

section

variable {source target : Corpus} {disk : Disk} {items : List (Occurrence × String)}

section

variable {excising : Excising} {place : Nat} {item : Occurrence × String}
  (hitem : items[place]? = some item)
include hitem

theorem disk_step : (excising.step source target items place).disk =
    ((excising.work place).next source target item excising.disk).2 := by
  rw [Excising.step, hitem]

theorem work_step_self : (excising.step source target items place).work place =
    ((excising.work place).next source target item excising.disk).1 := by
  rw [Excising.step, hitem]
  exact if_pos rfl

theorem work_step_of_ne {index : Nat} (hindex : index ≠ place) :
    (excising.step source target items place).work index = excising.work index := by
  rw [Excising.step, hitem]
  exact if_neg hindex

end

/-- Two places of a list are one, and then so are the entries there, or they differ. -/
theorem same_or_ne {place index : Nat} {item other : Occurrence × String}
    (hitem : items[place]? = some item) (hother : items[index]? = some other) :
    index = place ∧ other = item ∨ index ≠ place := by
  by_cases hindex : index = place
  · subst hindex
    exact .inl ⟨rfl, Option.some.inj (hother.symm.trans hitem)⟩
  · exact .inr hindex

theorem Independent.outOfWay_of_ne (hitems : Independent source target disk items)
    {place index : Nat} {item other : Occurrence × String} (hitem : items[place]? = some item)
    (hother : items[index]? = some other) (hne : place ≠ index) :
    OutOfWay source target disk item other := by
  obtain ⟨hplace, rfl⟩ := List.getElem?_eq_some_iff.mp hitem
  obtain ⟨hindex, rfl⟩ := List.getElem?_eq_some_iff.mp hother
  have hpairs := List.pairwise_iff_getElem.mp hitems.outOfWay
  rcases Nat.lt_or_gt_of_ne hne with hlt | hlt
  · exact (hpairs place index hplace hindex hlt).1
  · exact (hpairs index place hindex hplace hlt).2

section

variable (hitems : Independent source target disk items) {counts : Nat → Nat}
  {excising : Excising} (hsums : Sums source target disk items counts excising)
include hitems

theorem Independent.alone {place : Nat} {item : Occurrence × String}
    (hitem : items[place]? = some item) (count : Nat) :
    Alone (target.resolve item.2) disk (workAlone source target item disk count).1
      (workAlone source target item disk count).2 :=
  alone_workAlone source target (hitems.endsInName item (List.mem_of_getElem? hitem))
    hitems.working count

/-- What a worker changes on the way of another one's record is a directory. -/
theorem Independent.find?_of_changed {place index : Nat} {item other : Occurrence × String}
    (hitem : items[place]? = some item) (hother : items[index]? = some other)
    (hne : index ≠ place) {count : Nat} {found : Location}
    (hchanged : (workAlone source target other disk count).2.find? found ≠ disk.find? found)
    (hvisits : found ∈ disk.visits (target.resolve item.2)) :
    disk.goal (target.resolve item.2) ≠ .ok found ∧
      (workAlone source target other disk count).2.find? found = some .directory := by
  rcases (hitems.alone hother count).changed found hchanged with hgoal | ⟨hpassed, -, hmade⟩
  · exact absurd hgoal ((hitems.outOfWay_of_ne hother hitem hne).goal_ne found hvisits)
  · exact ⟨(hitems.outOfWay_of_ne hitem hother hne.symm).goal_ne found hpassed, hmade⟩

/-- A place that two workers change is a directory for both. -/
theorem Independent.find?_of_both_changed {place index : Nat}
    {item other : Occurrence × String} (hitem : items[place]? = some item)
    (hother : items[index]? = some other) (hne : index ≠ place) {count otherCount : Nat}
    {found : Location} {after : Disk}
    (hchanged : (workAlone source target other disk otherCount).2.find? found ≠
      disk.find? found)
    (hchange : let alone := (workAlone source target item disk count).2
      alone.goal (target.resolve item.2) = .ok found ∧
          alone.find? found ≠ some .directory ∨
        found ∈ alone.visits (target.resolve item.2) ∧ alone.find? found = none ∧
          after.find? found = some .directory) :
    after.find? found = some .directory ∧
      (workAlone source target other disk otherCount).2.find? found = some .directory := by
  have hworking := (hitems.alone hitem count).working_eq
  simp only [Disk.goal_congr hworking, Disk.visits_congr hworking] at hchange
  have hvisits : found ∈ disk.visits (target.resolve item.2) :=
    hchange.elim (fun h => Disk.mem_visits_of_goal h.1) (·.1)
  obtain ⟨hgoal, hdirectory⟩ := hitems.find?_of_changed hitem hother hne hchanged hvisits
  rcases hchange with ⟨hsame, -⟩ | ⟨-, -, hmade⟩
  · exact absurd hsame hgoal
  · exact ⟨hmade, hdirectory⟩

include hsums

/-- Where the disk is not as a worker alone has left it, another one has written his
record or made a directory on the way of it. -/
theorem Sums.find?_cases {place : Nat} {item : Occurrence × String}
    (hitem : items[place]? = some item) (found : Location) :
    excising.disk.find? found =
        (workAlone source target item disk (counts place)).2.find? found ∨
      (workAlone source target item disk (counts place)).2.find? found = disk.find? found ∧
        ∃ index other, items[index]? = some other ∧ index ≠ place ∧
          (disk.find? found = some .directory →
            excising.disk.find? found = some .directory) ∧
          (disk.goal (target.resolve other.2) = .ok found ∨
            found ∈ disk.visits (target.resolve other.2) ∧ disk.find? found = none ∧
              excising.disk.find? found = some .directory) := by
  by_cases hsame :
      (workAlone source target item disk (counts place)).2.find? found = disk.find? found
  · by_cases hall : ∀ index other, items[index]? = some other →
        (workAlone source target other disk (counts index)).2.find? found = disk.find? found
    · exact .inl ((hsums.find?_of_unchanged found hall).trans hsame.symm)
    · push Not at hall
      obtain ⟨index, other, hother, hchanged⟩ := hall
      have hdisk := hsums.find?_of_changed index other hother found hchanged
      have halone := hitems.alone hother (counts index)
      refine .inr ⟨hsame, index, other, hother, ?_, ?_, ?_⟩
      · rcases same_or_ne hitem hother with ⟨rfl, rfl⟩ | hne
        · exact absurd hsame hchanged
        · exact hne
      · rw [hdisk]
        exact halone.keeps_directory found
      · rw [hdisk]
        exact halone.changed found hchanged
  · exact .inl (hsums.find?_of_changed place item hitem found hsame)

/-- To each worker the disk is as if he had worked alone. -/
theorem Sums.shares {place : Nat} {item : Occurrence × String}
    (hitem : items[place]? = some item) :
    Shares source target item disk (workAlone source target item disk (counts place)).2
      excising.disk := by
  have halone := hitems.alone hitem (counts place)
  refine ⟨hsums.working_eq, fun found hfound => ?_, fun found hfound => ?_,
    fun found hfound => ?_, fun found hfound => ?_⟩
  · rcases hsums.find?_cases hitems hitem found with hsame | ⟨-, -, -, -, -, hkeeps, -⟩
    · rw [hsame, halone.keeps_directory found hfound]
    · exact hkeeps hfound
  · rcases hsums.find?_cases hitems hitem found with hsame |
      ⟨-, index, other, hother, hne, -, hchange⟩
    · exact hsame
    · have hapart := (hitems.outOfWay_of_ne hother hitem hne).source_apart found hfound
      rcases hchange with hgoal | ⟨hvisits, hfree, -⟩
      · exact absurd hgoal hapart.1
      · exact absurd hfree (hapart.2 hvisits)
  · rcases hsums.find?_cases hitems hitem found with hsame |
      ⟨hsame, index, other, hother, hne, -, hchange⟩
    · exact .inl hsame
    · rcases hchange with hgoal | ⟨-, hfree, hmade⟩
      · exact absurd hgoal ((hitems.outOfWay_of_ne hother hitem hne).goal_ne found hfound)
      · exact .inr ⟨hsame.trans hfree, hmade⟩
  · rcases hsums.find?_cases hitems hitem found with hsame |
      ⟨-, index, other, hother, hne, -, hchange⟩
    · exact hsame
    · rcases hchange with hgoal | ⟨hvisits, -, -⟩
      · exact absurd hgoal ((hitems.outOfWay_of_ne hother hitem hne).goal_ne found
          (Disk.mem_visits_of_goal hfound))
      · exact absurd hfound ((hitems.outOfWay_of_ne hitem hother hne.symm).goal_ne found
          hvisits)

omit hitems in
theorem Sums.of_counts_eq {more : Nat → Nat}
    (hmore : ∀ place item, items[place]? = some item → more place = counts place) :
    Sums source target disk items more excising where
  working_eq := hsums.working_eq
  work_eq place item hitem := by
    rw [hmore place item hitem]
    exact hsums.work_eq place item hitem
  find?_of_changed place item hitem := by
    rw [hmore place item hitem]
    exact hsums.find?_of_changed place item hitem
  find?_of_unchanged found hsame := by
    apply hsums.find?_of_unchanged found
    intro place item hitem
    rw [← hmore place item hitem]
    exact hsame place item hitem

/-- A worker who goes on with an occurrence gets as far as alone, and changes what he
alone would change. -/
theorem Sums.step_alike {place : Nat} {item : Occurrence × String}
    (hitem : items[place]? = some item) :
    (excising.step source target items place).work place =
        (workAlone source target item disk (counts place + 1)).1 ∧
      ChangedAlike (target.resolve item.2)
        (workAlone source target item disk (counts place)).2
        (workAlone source target item disk (counts place + 1)).2
        excising.disk (excising.step source target items place).disk := by
  obtain ⟨hdone, hchanged, -⟩ := next_alike
    (hitems.endsInName item (List.mem_of_getElem? hitem)) hitems.working
    (hitems.alone hitem (counts place)) (hsums.shares hitems hitem)
  rw [← hsums.work_eq place item hitem] at hdone hchanged
  rw [work_step_self hitem, disk_step hitem, workAlone_succ, ← hsums.work_eq place item hitem]
  exact ⟨hdone, hchanged⟩

/-- The next go with an occurrence is one more of a worker alone. -/
theorem Sums.step {place : Nat} {more : Nat → Nat} (hplace : more place = counts place + 1)
    (hmore : ∀ index, index ≠ place → more index = counts index) :
    Sums source target disk items more (excising.step source target items place) := by
  cases hitem : items[place]? with
  | none =>
      rw [Excising.step, hitem]
      apply hsums.of_counts_eq
      intro index item hindex
      apply hmore
      rintro rfl
      rw [hitem] at hindex
      cases hindex
  | some item =>
      obtain ⟨hdone, hchanged⟩ := hsums.step_alike hitems hitem
      rw [← hplace] at hdone hchanged
      refine ⟨?_, fun index other hother => ?_, fun index other hother found hne => ?_,
        fun found hall => ?_⟩
      · rw [disk_step hitem, working_next, hsums.working_eq]
      · rcases same_or_ne hitem hother with ⟨rfl, rfl⟩ | hindex
        · exact hdone
        · rw [work_step_of_ne hitem hindex, hmore index hindex]
          exact hsums.work_eq index other hother
      · rcases same_or_ne hitem hother with ⟨rfl, rfl⟩ | hindex
        · rcases hchanged found with ⟨hsame, hkept⟩ | ⟨hsame, -⟩
          · rw [hsame] at hne ⊢
            rw [hkept]
            exact hsums.find?_of_changed index other hother found hne
          · exact hsame
        · rw [hmore index hindex] at hne ⊢
          rcases hchanged found with ⟨-, hkept⟩ | ⟨hsame, hchange⟩
          · rw [hkept]
            exact hsums.find?_of_changed index other hother found hne
          · -- both have made the directory
            obtain ⟨hmade, hdirectory⟩ :=
              hitems.find?_of_both_changed hitem hother hindex hne hchange
            rw [hsame, hmade, hdirectory]
      · rcases hchanged found with ⟨hsame, hkept⟩ | ⟨hsame, -⟩
        · rw [hkept]
          apply hsums.find?_of_unchanged found
          intro index other hother
          rcases same_or_ne hitem hother with ⟨rfl, rfl⟩ | hindex
          · rw [← hsame, hall index other hother]
          · rw [← hmore index hindex, hall index other hother]
        · rw [hsame, hall place item hitem]

end

theorem run_append (front back : List Nat) (excising : Excising) :
    Excising.run source target items (front ++ back) excising =
      Excising.run source target items back (Excising.run source target items front excising) :=
  List.foldl_append

/-- After any schedule, each occurrence is as far as a worker alone gets with as many goes,
and so is the disk. -/
theorem Independent.sums_run (hitems : Independent source target disk items)
    (schedule : List Nat) :
    Sums source target disk items (fun place => schedule.count place)
      (Excising.run source target items schedule { disk }) := by
  induction schedule using List.reverseRecOn with
  | nil =>
      exact ⟨rfl, fun _ _ _ => rfl, fun _ _ _ _ hne => absurd rfl hne, fun _ _ => rfl⟩
  | append_singleton schedule place ih =>
      rw [run_append]
      exact ih.step hitems (by simp) fun index hindex => by simp [Ne.symm hindex]

end

/-! ### All the work -/

/-- Three goes are all the work on an occurrence, and what they do is what is done for it
in the order of the list. -/
theorem exists_workAlone_three (source target : Corpus) (item : Occurrence × String)
    (disk : Disk) :
    ∃ outcome after, workAlone source target item disk 3 = (.ended outcome, after) ∧
      (source.exciseItem target item).run disk =
        (.ok (outcome.map fun _ => item.1.moveTo item.2), after) := by
  simp only [workAlone, Work.next, exciseItem, OnDisk.run_attempt, exciseInto]
  cases hexcise : source.exciseOne item.1 disk with
  | error fault =>
      rw [run_bind_of_error (run_bind_of_error (OnDisk.run_look_of_eq hexcise))]
      exact ⟨_, _, rfl, rfl⟩
  | ok graph =>
      have hlook := OnDisk.run_look_of_eq hexcise
      cases hprepare : (target.prepare item.2).run disk with
      | mk outcome middle =>
          cases outcome with
          | error fault =>
              have hstore : (target.store item.2 graph).run disk = (.error fault, middle) :=
                run_bind_of_error hprepare
              rw [run_bind_of_error ((run_bind_of_ok hlook).trans hstore)]
              exact ⟨_, _, rfl, rfl⟩
          | ok made =>
              cases hwrite : (target.writeRecord item.2 graph).run middle with
              | mk outcome after =>
                  have hstore : (target.store item.2 graph).run disk = (outcome, after) :=
                    (run_bind_of_ok hprepare).trans hwrite
                  have hinto := (run_bind_of_ok hlook).trans hstore
                  refine ⟨outcome, after, by simp [hwrite], ?_⟩
                  cases outcome with
                  | error fault => rw [run_bind_of_error hinto]; rfl
                  | ok done => rw [run_bind_of_ok hinto]; rfl

theorem workAlone_eq_of_le (source target : Corpus) (item : Occurrence × String)
    (disk : Disk) {count : Nat} (hcount : 3 ≤ count) :
    workAlone source target item disk count = workAlone source target item disk 3 := by
  obtain ⟨outcome, after, hthree, -⟩ := exists_workAlone_three source target item disk
  induction count, hcount using Nat.le_induction with
  | base => rfl
  | succ count hcount ih =>
      rw [workAlone_succ, ih, hthree]
      rfl

/-- The schedule of a single worker, who takes the occurrences one after the other. -/
def inOrder (start count : Nat) : List Nat :=
  (List.range' start count).flatMap (List.replicate 3)

theorem inOrder_succ (start count : Nat) :
    inOrder start (count + 1) = List.replicate 3 start ++ inOrder (start + 1) count := by
  rw [inOrder, List.range'_succ, List.flatMap_cons, inOrder]

theorem three_le_count_inOrder {start count place : Nat} (hstart : start ≤ place)
    (hplace : place < start + count) : 3 ≤ (inOrder start count).count place := by
  induction count generalizing start with
  | zero => omega
  | succ count ih =>
      rw [inOrder_succ, List.count_append]
      by_cases hsame : place = start
      · rw [hsame, List.count_replicate_self]
        omega
      · have hrest : 3 ≤ (inOrder (start + 1) count).count place :=
          ih (by omega) (by omega)
        omega

section

variable (source target : Corpus) {items : List (Occurrence × String)}

/-- A worker who goes on with one occurrence again and again is as good as alone. -/
theorem run_replicate {excising : Excising} {place : Nat} {item : Occurrence × String}
    (hitem : items[place]? = some item) (hwaiting : excising.work place = .waiting)
    (count : Nat) :
    let after := Excising.run source target items (List.replicate count place) excising
    workAlone source target item excising.disk count = (after.work place, after.disk) ∧
      ∀ index, index ≠ place → after.work index = excising.work index := by
  induction count with
  | zero => exact ⟨by rw [workAlone, ← hwaiting]; rfl, fun _ _ => rfl⟩
  | succ count ih =>
      obtain ⟨hself, hothers⟩ := ih
      rw [List.replicate_succ', run_append]
      refine ⟨?_, fun index hindex => ?_⟩
      · rw [workAlone_succ, hself]
        exact Prod.ext (work_step_self hitem).symm (disk_step hitem).symm
      · exact (work_step_of_ne hitem hindex).trans (hothers index hindex)

/-- A single worker does what is done in the order of the list. -/
theorem exists_run_inOrder (front rest : List (Occurrence × String)) (excising : Excising)
    (hwaiting : ∀ place, front.length ≤ place → excising.work place = .waiting) :
    let last := Excising.run source target (front ++ rest)
      (inOrder front.length rest.length) excising
    ∃ outcomes, (rest.mapM (source.exciseItem target)).run excising.disk =
        (.ok outcomes, last.disk) ∧
      (∀ place < front.length, last.work place = excising.work place) ∧
      (rest.zipIdx front.length).mapM last.outcomeAt? = some outcomes := by
  induction rest generalizing front excising with
  | nil => exact ⟨[], rfl, fun _ _ => rfl, rfl⟩
  | cons head tail ih =>
      have hhead : (front ++ head :: tail)[front.length]? = some head := by simp
      obtain ⟨hself, hothers⟩ := run_replicate source target hhead
        (hwaiting _ (Nat.le_refl _)) 3
      obtain ⟨outcome, after, hthree, hitem⟩ :=
        exists_workAlone_three source target head excising.disk
      rw [hthree] at hself
      obtain ⟨hwork, hdisk⟩ := Prod.mk.inj hself
      have horder : inOrder front.length (head :: tail).length =
          List.replicate 3 front.length ++ inOrder (front ++ [head]).length tail.length := by
        simp [inOrder_succ]
      have hitems : front ++ head :: tail = front ++ [head] ++ tail := by simp
      have hlater : ∀ place, (front ++ [head]).length ≤ place →
          (Excising.run source target (front ++ head :: tail) (List.replicate 3 front.length)
            excising).work place = .waiting := by
        intro place hplace
        rw [List.length_append, List.length_singleton] at hplace
        rw [hothers place (by omega)]
        exact hwaiting place (by omega)
      obtain ⟨outcomes, hrun, hkept, houtcomes⟩ := ih (front ++ [head]) _ hlater
      rw [← hitems, ← run_append, ← horder] at hrun hkept houtcomes
      rw [← hdisk] at hrun
      refine ⟨_, run_mapM_cons_of_ok hitem hrun, ?_, ?_⟩
      · intro place hplace
        rw [hkept place (by simp; omega), hothers place (by omega)]
      · rw [List.zipIdx_cons, List.mapM_cons]
        have hfirst := hkept front.length (by simp)
        rw [← hwork] at hfirst
        rw [List.length_append, List.length_singleton] at houtcomes
        rw [houtcomes]
        simp only [Excising.outcomeAt?, hfirst]
        rfl

end

/-- Schedules that leave no work on any occurrence end alike. -/
theorem Sums.agree {source target : Corpus} {disk : Disk}
    {items : List (Occurrence × String)} {counts more : Nat → Nat}
    {excising other : Excising} (hsums : Sums source target disk items counts excising)
    (hother : Sums source target disk items more other)
    (hcounts : ∀ place < items.length, 3 ≤ counts place)
    (hmore : ∀ place < items.length, 3 ≤ more place) :
    (∀ place < items.length, other.work place = excising.work place) ∧
      ∀ found, other.disk.find? found = excising.disk.find? found := by
  have hsame {place : Nat} {item : Occurrence × String} (hitem : items[place]? = some item) :
      workAlone source target item disk (more place) =
        workAlone source target item disk (counts place) := by
    have hplace := (List.getElem?_eq_some_iff.mp hitem).1
    rw [workAlone_eq_of_le source target item disk (hmore place hplace),
      workAlone_eq_of_le source target item disk (hcounts place hplace)]
  constructor
  · intro place hplace
    have hitem := List.getElem?_eq_getElem hplace
    rw [hother.work_eq place _ hitem, hsame hitem, hsums.work_eq place _ hitem]
  · intro found
    by_cases hall : ∀ place item, items[place]? = some item →
        (workAlone source target item disk (counts place)).2.find? found = disk.find? found
    · rw [hsums.find?_of_unchanged found hall, hother.find?_of_unchanged found]
      intro place item hitem
      rw [hsame hitem, hall place item hitem]
    · push Not at hall
      obtain ⟨place, item, hitem, hchanged⟩ := hall
      rw [hsums.find?_of_changed place item hitem found hchanged,
        hother.find?_of_changed place item hitem found (hsame hitem ▸ hchanged), hsame hitem]

theorem endsInName_destination {occurrences : List Occurrence} {item : Occurrence × String}
    (hitem : item ∈ withDestinations occurrences) : endsInName item.2 := by
  obtain ⟨number, hnumbered⟩ := exists_number_of_mem hitem
  obtain ⟨front, last, -, hname⟩ := exists_pathParts_numberedPath item.1.graphPath
  obtain ⟨name, hname, hparts⟩ := hname number
  rw [hnumbered, endsInName_eq hparts, decide_eq_true_iff]
  exact ⟨hname.ne_empty, hname.ne_dot, hname.ne_dots⟩

/-- Occurrences that are out of each other's way are excised alike by workers in any
order: every schedule with all the work on each of them has the outcomes, and leaves the
entries, that the run in the order of the list has and leaves. -/
theorem exciseAll_of_schedule {source target : Corpus} {disk : Disk}
    {occurrences : List Occurrence} (hworking : disk.find? disk.working = some .directory)
    (hapart : (withDestinations occurrences).Pairwise fun item other =>
      OutOfWay source target disk item other ∧ OutOfWay source target disk other item)
    {schedule : List Nat}
    (hschedule : ∀ place < occurrences.length, 3 ≤ schedule.count place) :
    let last := Excising.run source target (withDestinations occurrences) schedule { disk }
    ∃ outcomes after, last.outcomes? (withDestinations occurrences) = some outcomes ∧
      (source.exciseAll target occurrences).run disk =
        (.ok (successes outcomes, .ofOutcomes (occurrences.zip outcomes)), after) ∧
      ∀ place, last.disk.find? place = after.find? place := by
  have hlength : (withDestinations occurrences).length = occurrences.length := by
    rw [← List.length_map, map_fst_withDestinations]
  have hitems : Independent source target disk (withDestinations occurrences) :=
    ⟨hworking, fun item hitem => endsInName_destination hitem, hapart⟩
  obtain ⟨outcomes, hrun, -, houtcomes⟩ :=
    exists_run_inOrder source target [] (withDestinations occurrences) { disk }
      fun _ _ => rfl
  obtain ⟨hwork, hdisk⟩ :=
    (hitems.sums_run (inOrder 0 (withDestinations occurrences).length)).agree
      (hitems.sums_run schedule)
      (fun place hplace => three_le_count_inOrder (Nat.zero_le _) (by omega))
      (fun place hplace => hschedule place (hlength ▸ hplace))
  refine ⟨outcomes, _, ?_, ?_, hdisk⟩
  · rw [← houtcomes]
    apply mapM_congr_of_mem
    intro entry hentry
    rw [Excising.outcomeAt?, Excising.outcomeAt?,
      hwork entry.2 (List.snd_lt_of_mem_zipIdx hentry)]
    rfl
  · change ((withDestinations occurrences).mapM (source.exciseItem target) >>= _).run
      disk = _
    rw [run_bind_of_ok hrun]
    rfl

/-- Two statements of one record and one of another, below a directory that has to be
made. -/
example :
    let occurrence (graphPath : String) (root : UInt64) : Occurrence :=
      ⟨graphPath, .info, "m", some root, none⟩
    let disk : Disk := ((({} : Disk).put ["raw"] .directory).put ["raw", "A.proto"]
      (.file (.bytes []))).put ["raw", "b"] .directory
    (withDestinations [occurrence "A.proto" 1, occurrence "b/B.proto" 1,
        occurrence "A.proto" 7]).Pairwise fun item other =>
      OutOfWay ⟨"raw"⟩ ⟨"out"⟩ disk item other ∧ OutOfWay ⟨"raw"⟩ ⟨"out"⟩ disk other item := by
  decide +kernel

/-- Destinations that are different texts and lead to one place: the occurrences are in
each other's way. -/
example :
    let occurrence (graphPath : String) : Occurrence := ⟨graphPath, .info, "m", some 1, none⟩
    let items := withDestinations [occurrence "./Foo.proto", occurrence "Foo.proto"]
    items.map Prod.snd = ["./Foo1.proto", "Foo1.proto"] ∧
      ¬ items.Pairwise fun item other => OutOfWay ⟨"raw"⟩ ⟨"out"⟩ {} item other := by
  decide +kernel

end Corpus

end LogCorpus
