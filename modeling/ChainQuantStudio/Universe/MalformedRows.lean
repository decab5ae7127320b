import ChainQuantStudio.Library.Columns
import ChainQuantStudio.Universe.Scanner

/-!
# Malformed rows

A row is well formed when the fields that its event needs are numbers. The scanner passes over a
malformed row only as far as the exceptions that it catches go: a text that is no number, an
infinite count or a time that is none end the call, and not-a-numbers, infinities and booleans are
recorded.
-/

namespace ChainQuantStudio.Universe

open Columns Data
open Studio.StrategyData (Representable)

def Payload.isNumber : Payload → Bool
  | .int _ | .float (.finite _ _) => true
  | .str text => (Decimal.ofText text.toList).any fun value => value.finite?.isSome
  | _ => false

def Payload.isCount : Payload → Bool
  | .int _ | .float (.finite _ _) => true
  | .str text => (Decimal.intOfText text.toList).isSome
  | _ => false

def hasNumber (row : Row) (key : String) : Bool := (Dict.get? row key).any Payload.isNumber

def hasCount (row : Row) (key : String) : Bool := (Dict.get? row key).any Payload.isCount

/-- A ticker or a book of a watched symbol with all numbers that it needs; the event time may be
missing. -/
def wellFormed (p : Platform) (allowed : List String) (now : Instant) : Payload → Bool
  | .obj row =>
    (p.watched allowed row).isSome && (Dict.get? row "E").all Payload.isCount &&
      (p.observedAt row now).isOk &&
      match eventOf row with
      | some .ticker => hasNumber row "c" && hasNumber row "q" && hasCount row "n"
      | some .book => ["b", "a", "B", "A"].all (hasNumber row)
      | none => false
  | _ => false

def Reads (row : Row) (key : String) (next : Prop) : Prop :=
  match Dict.get? row key with
  | none => True
  | some value => (decimalOf value).isOk = true ∧ next

def TickerKept (scanner : Scanner Decimal) (symbol : String) (observedAt : Instant) (formed : Bool) :
    Prop :=
  scanner.isOlder symbol observedAt = true ∨
    formed = true ∧ Representable (scanner.cutoff observedAt)

def TickerHarmless (scanner : Scanner Decimal) (symbol : String) (row : Row) (observedAt : Instant)
    (formed : Bool) : Prop :=
  Reads row "c" <| Reads row "q" <|
    match Dict.get? row "n" with
    | none => True
    | some value =>
      match intOf value with
      | .error raised => raised.caught = true
      | .ok _ => TickerKept scanner symbol observedAt formed

def QuotesHarmless (scanner : Scanner Decimal) (symbol : String) (observedAt : Instant)
    (formed : Bool) (quotes : Quotes Decimal) : Prop :=
  quotes.invalid = some true ∨
    quotes.invalid = some false ∧ ∃ book, quotes.book observedAt = some book ∧
      (formed = true ∨ Dict.get? scanner.books symbol = some book)

def BookHarmless (scanner : Scanner Decimal) (symbol : String) (row : Row) (observedAt : Instant)
    (formed : Bool) : Prop :=
  Reads row "b" <| Reads row "a" <| Reads row "B" <| Reads row "A" <|
    ∀ quotes, quotesOf row = .ok quotes → QuotesHarmless scanner symbol observedAt formed quotes

/-- A row of a watched symbol has a time that converts, and its event is harmless. -/
def RowHarmless (p : Platform) (now : Instant) (scanner : Scanner Decimal) : Payload → Prop
  | .obj row => ∀ symbol, p.watched scanner.allowedSymbols row = some symbol →
    ∃ observedAt, p.observedAt row now = .ok observedAt ∧
      let formed := wellFormed p scanner.allowedSymbols now (.obj row)
      match eventOf row with
      | some .ticker => TickerHarmless scanner symbol row observedAt formed
      | some .book => BookHarmless scanner symbol row observedAt formed
      | none => True
  | _ => True

section

variable {α : Type} {s t : Scanner Decimal} {symbol : String}
  {row : Row} {observedAt : Instant} {formed : Bool}

theorem decimalOf_error {value : Payload} {raised : Raised} (h : decimalOf value = .error raised) :
    raised.caught = false := by
  unfold decimalOf at h
  split at h
  · cases h
  · cases h
  · cases h
  · cases h
  · split at h
    · cases h
    · cases h
      rfl
  · cases h
    rfl
  · cases h
    rfl
  · cases h
    rfl
  · cases h
    rfl

def CaughtOr (wanted : α → Prop) : Except Raised α → Prop
  | .error raised => raised.caught = true
  | .ok value => wanted value

theorem caughtOr_reads {wanted : α → Prop} {next : Decimal → Except Raised α} {key : String}
    {harmless : Prop}
    (h : ∀ value, (Dict.get? row key).map decimalOf = some (.ok value) →
      (CaughtOr wanted (next value) ↔ harmless)) :
    CaughtOr wanted (do next (← decimalOf (← field row key))) ↔ Reads row key harmless := by
  unfold Reads field
  cases hfield : Dict.get? row key with
  | none => exact iff_of_true rfl trivial
  | some value =>
    cases hvalue : decimalOf value with
    | error raised =>
      refine iff_of_false (fun hcaught => ?_) (fun hreads => ?_)
      · have hraised := decimalOf_error hvalue
        have hcaught' : raised.caught = true := by
          simpa [CaughtOr, bind, Except.bind, hvalue] using hcaught
        rw [hraised] at hcaught'
        cases hcaught'
      · have hok := hreads.1
        rw [hvalue] at hok
        cases hok
    | ok number =>
      have hnext := h number (by rw [hfield, Option.map_some, hvalue])
      simp only [bind, Except.bind, hvalue]
      exact hnext.trans ⟨fun hharmless => ⟨rfl, hharmless⟩, fun hreads => hreads.2⟩

theorem tickerHarmless_iff :
    TickerHarmless s symbol row observedAt formed ↔
      CaughtOr (fun _ => TickerKept s symbol observedAt formed) (tickerOf row observedAt) := by
  refine (caughtOr_reads fun price _ => caughtOr_reads fun volume _ => ?_).symm
  unfold field
  cases Dict.get? row "n" with
  | none => exact iff_of_true rfl trivial
  | some value =>
    simp only [bind, Except.bind]
    cases intOf value with
    | error raised => exact Iff.rfl
    | ok count => exact Iff.rfl

theorem bookHarmless_iff :
    BookHarmless s symbol row observedAt formed ↔
      CaughtOr (QuotesHarmless s symbol observedAt formed) (quotesOf row) := by
  refine (caughtOr_reads fun bid hbid => caughtOr_reads fun ask hask =>
    caughtOr_reads fun bidQuantity hbidQuantity =>
      caughtOr_reads fun askQuantity haskQuantity => ?_).symm
  have hquotes : quotesOf row = .ok ⟨bid, ask, bidQuantity, askQuantity⟩ := by
    obtain ⟨b, hb, hbid⟩ := Option.map_eq_some_iff.mp hbid
    obtain ⟨a, ha, hask⟩ := Option.map_eq_some_iff.mp hask
    obtain ⟨bq, hbq, hbidQuantity⟩ := Option.map_eq_some_iff.mp hbidQuantity
    obtain ⟨aq, haq, haskQuantity⟩ := Option.map_eq_some_iff.mp haskQuantity
    simp only [quotesOf, field, hb, ha, hbq, haq, hbid, hask, hbidQuantity, haskQuantity, bind,
      Except.bind]
    rfl
  rw [hquotes]
  exact ⟨fun h quotes heq => Except.ok.inj heq ▸ h, fun h => h _ rfl⟩

theorem append_dropWhile_ne {D : Type} (history : List (TickerPoint D)) {point : TickerPoint D}
    {cutoff : Instant} (hcutoff : cutoff ≤ point.observedAt) :
    ((history ++ [point]).dropWhile fun other => other.observedAt < cutoff) ≠ history := by
  intro heq
  have hlength := congrArg List.length heq
  cases history with
  | nil =>
    rw [List.nil_append, List.dropWhile_cons_of_neg (by simpa using hcutoff)] at hlength
    cases hlength
  | cons first rest =>
    rw [List.cons_append] at heq hlength
    by_cases hdrop : first.observedAt < cutoff
    · rw [List.dropWhile_cons_of_pos (by simpa using hdrop)] at heq hlength
      have hall : (rest ++ [point]).dropWhile (fun other => other.observedAt < cutoff) =
          rest ++ [point] := by
        apply List.IsSuffix.eq_of_length (List.dropWhile_suffix _)
        rw [hlength]
        simp
      rw [hall] at heq
      have hkept : ¬ first.observedAt < cutoff := by
        have hhead := List.head?_dropWhile_not
          (fun other : TickerPoint D => other.observedAt < cutoff) (rest ++ [point])
        rw [hall, heq] at hhead
        simpa using hhead
      exact hkept hdrop
    · rw [List.dropWhile_cons_of_neg (by simpa using hdrop)] at hlength
      simp at hlength

theorem Scanner.recordPoint_ok_iff {point : TickerPoint Decimal} :
    (∃ t, s.recordPoint symbol point = .ok t ∧ (formed = false → t = s)) ↔
      TickerKept s symbol point.observedAt formed := by
  unfold Scanner.recordPoint TickerKept
  cases holder : s.isOlder symbol point.observedAt with
  | true =>
    rw [if_pos rfl]
    exact iff_of_true ⟨s, rfl, fun _ => rfl⟩ (.inl rfl)
  | false =>
    rw [if_neg Bool.false_ne_true]
    dsimp only
    split_ifs with hcutoff
    · constructor
      · rintro ⟨t, ht, hsame⟩
        cases hformed : formed with
        | true => exact .inr ⟨rfl, hcutoff⟩
        | false =>
          have hhistory := congrArg (fun s => s.historyOf symbol)
            ((Except.ok.inj ht).trans (hsame hformed))
          have hbefore : s.cutoff point.observedAt ≤ point.observedAt := by
            have hpos := s.lookback_pos
            have : (0 : ℤ) ≤ s.lookbackSeconds * 2 * 1000000 := by positivity
            exact sub_le_self _ this
          refine absurd ?_ (append_dropWhile_ne (s.historyOf symbol) hbefore)
          simpa [Scanner.historyOf, Dict.get?_set] using hhistory
      · rintro (hfalse | ⟨hformed, -⟩)
        · cases hfalse
        · exact ⟨_, rfl, fun hnot => Bool.noConfusion (hformed.symm.trans hnot)⟩
    · refine iff_of_false ?_ ?_
      · rintro ⟨t, ht, -⟩
        cases ht
      · rintro (hfalse | ⟨-, hrepresentable⟩)
        · cases hfalse
        · exact hcutoff hrepresentable

theorem observedAt_of_tickerOf {point : TickerPoint Decimal}
    (h : tickerOf row observedAt = .ok point) : point.observedAt = observedAt := by
  unfold tickerOf at h
  obtain ⟨c, -, h⟩ := bind_eq_ok.mp h
  obtain ⟨price, -, h⟩ := bind_eq_ok.mp h
  obtain ⟨q, -, h⟩ := bind_eq_ok.mp h
  obtain ⟨volume, -, h⟩ := bind_eq_ok.mp h
  obtain ⟨n, -, h⟩ := bind_eq_ok.mp h
  obtain ⟨count, -, h⟩ := bind_eq_ok.mp h
  cases h
  rfl

theorem Scanner.recordTicker_ok_iff :
    (∃ t, s.recordTicker symbol row observedAt = .ok t ∧ (formed = false → t = s)) ↔
      TickerHarmless s symbol row observedAt formed := by
  rw [tickerHarmless_iff]
  unfold Scanner.recordTicker
  cases hticker : tickerOf row observedAt with
  | error raised =>
    dsimp only [CaughtOr]
    split_ifs with hcaught
    · exact iff_of_true ⟨s, rfl, fun _ => rfl⟩ hcaught
    · refine iff_of_false ?_ hcaught
      rintro ⟨t, ht, -⟩
      cases ht
  | ok point =>
    dsimp only [CaughtOr]
    rw [Scanner.recordPoint_ok_iff, observedAt_of_tickerOf hticker]

theorem set_of_get? {α : Type} {entries : List (String × α)} {key : String} {value : α}
    (h : Dict.get? entries key = some value) : Dict.set entries key value = entries := by
  induction entries with
  | nil => cases h
  | cons head rest ih =>
    rw [Dict.get?_cons] at h
    rw [Dict.set]
    split_ifs at h ⊢ with hkey
    · rw [← hkey, ← Option.some.inj h]
    · rw [ih h]

theorem Scanner.recordBook_ok_iff :
    (∃ t, s.recordBook symbol row observedAt = .ok t ∧ (formed = false → t = s)) ↔
      BookHarmless s symbol row observedAt formed := by
  rw [bookHarmless_iff]
  unfold Scanner.recordBook
  cases hquotes : quotesOf row with
  | error raised =>
    dsimp only [CaughtOr]
    split_ifs with hcaught
    · exact iff_of_true ⟨s, rfl, fun _ => rfl⟩ hcaught
    · refine iff_of_false ?_ hcaught
      rintro ⟨t, ht, -⟩
      cases ht
  | ok quotes =>
    dsimp only [CaughtOr]
    unfold QuotesHarmless
    cases hinvalid : quotes.invalid with
    | none =>
      refine iff_of_false ?_ ?_
      · rintro ⟨t, ht, -⟩
        cases ht
      · rintro (htrue | ⟨hfalse, -⟩)
        · cases htrue
        · cases hfalse
    | some invalid =>
      cases invalid with
      | true => exact iff_of_true ⟨s, rfl, fun _ => rfl⟩ (.inl rfl)
      | false =>
        cases hbook : quotes.book observedAt with
        | none =>
          refine iff_of_false ?_ ?_
          · rintro ⟨t, ht, -⟩
            cases ht
          · rintro (htrue | ⟨-, book, hsome, -⟩)
            · cases htrue
            · cases hsome
        | some book =>
          constructor
          · rintro ⟨t, ht, hsame⟩
            refine .inr ⟨rfl, book, rfl, ?_⟩
            cases hformed : formed with
            | true => exact .inl rfl
            | false =>
              have hbooks := congrArg (fun s => Dict.get? s.books symbol)
                ((Except.ok.inj ht).trans (hsame hformed))
              refine .inr ?_
              simpa [Scanner.recordBookPoint, Dict.get?_set] using hbooks.symm
          · rintro (htrue | ⟨-, other, hother, hkept⟩)
            · cases htrue
            · cases hother
              refine ⟨_, rfl, fun hnot => ?_⟩
              rcases hkept with hformed | hsame
              · exact Bool.noConfusion (hformed.symm.trans hnot)
              · unfold Scanner.recordBookPoint
                rw [set_of_get? hsame]

theorem processRow_ok_iff (p : Platform) (now : Instant) (s : Scanner Decimal) (row : Payload) :
    (∃ t, s.processRow p now row = .ok t ∧
      (wellFormed p s.allowedSymbols now row = false → t = s)) ↔ RowHarmless p now s row := by
  cases row with
  | obj row =>
    unfold Scanner.processRow RowHarmless
    dsimp only
    cases hwatched : p.watched s.allowedSymbols row with
    | none => exact iff_of_true ⟨s, rfl, fun _ => rfl⟩ nofun
    | some symbol =>
      simp only [Option.some.injEq, forall_eq']
      cases htime : p.observedAt row now with
      | error raised =>
        refine iff_of_false ?_ ?_
        · rintro ⟨t, ht, -⟩
          cases ht
        · rintro ⟨observedAt, hobserved, -⟩
          cases hobserved
      | ok observedAt =>
        simp only [Except.ok.injEq, exists_eq_left']
        simp only [bind, Except.bind]
        cases eventOf row with
        | none => exact iff_of_true ⟨s, rfl, fun _ => rfl⟩ trivial
        | some event =>
          cases event with
          | ticker => exact Scanner.recordTicker_ok_iff
          | book => exact Scanner.recordBook_ok_iff
  | null => exact iff_of_true ⟨s, rfl, fun _ => rfl⟩ trivial
  | bool value => exact iff_of_true ⟨s, rfl, fun _ => rfl⟩ trivial
  | int value => exact iff_of_true ⟨s, rfl, fun _ => rfl⟩ trivial
  | float value => exact iff_of_true ⟨s, rfl, fun _ => rfl⟩ trivial
  | str text => exact iff_of_true ⟨s, rfl, fun _ => rfl⟩ trivial
  | arr items => exact iff_of_true ⟨s, rfl, fun _ => rfl⟩ trivial

theorem Scanner.recordTicker_cases (h : s.recordTicker symbol row observedAt = .ok t) :
    t = s ∨ ∃ point, tickerOf row observedAt = .ok point ∧ s.recordPoint symbol point = .ok t := by
  unfold Scanner.recordTicker at h
  split at h
  · split_ifs at h
    exact .inl (Except.ok.inj h).symm
  · rename_i point hpoint
    exact .inr ⟨point, hpoint, h⟩

theorem Scanner.recordBook_cases (h : s.recordBook symbol row observedAt = .ok t) :
    t = s ∨ ∃ quotes book, quotesOf row = .ok quotes ∧ quotes.book observedAt = some book ∧
      t = s.recordBookPoint symbol book := by
  unfold Scanner.recordBook at h
  split at h
  · split_ifs at h
    exact .inl (Except.ok.inj h).symm
  · rename_i quotes hquotes
    split at h
    · cases h
    · exact .inl (Except.ok.inj h).symm
    · split at h
      · cases h
      · rename_i book hbook
        exact .inr ⟨quotes, book, hquotes, hbook, (Except.ok.inj h).symm⟩

theorem Scanner.processRow_cases {p : Platform} {now : Instant} {item : Payload}
    (h : s.processRow p now item = .ok t) :
    t = s ∨ ∃ row symbol, item = .obj row ∧ p.watched s.allowedSymbols row = some symbol ∧
      ((∃ observedAt point, eventOf row = some .ticker ∧ tickerOf row observedAt = .ok point ∧
          s.recordPoint symbol point = .ok t) ∨
        ∃ observedAt quotes book, eventOf row = some .book ∧ quotesOf row = .ok quotes ∧
          quotes.book observedAt = some book ∧ t = s.recordBookPoint symbol book) := by
  unfold Scanner.processRow at h
  split at h
  · rename_i row
    split at h
    · exact .inl (Except.ok.inj h).symm
    · rename_i symbol hwatched
      obtain ⟨observedAt, -, hevent⟩ := bind_eq_ok.mp h
      split at hevent
      · rename_i hticker
        rcases Scanner.recordTicker_cases hevent with hsame | ⟨point, hpoint, hrecorded⟩
        · exact .inl hsame
        · exact .inr ⟨row, symbol, rfl, hwatched,
            .inl ⟨observedAt, point, hticker, hpoint, hrecorded⟩⟩
      · rename_i hbookEvent
        rcases Scanner.recordBook_cases hevent with
          hsame | ⟨quotes, book, hquotes, hbook, hrecorded⟩
        · exact .inl hsame
        · exact .inr ⟨row, symbol, rfl, hwatched,
            .inr ⟨observedAt, quotes, book, hbookEvent, hquotes, hbook, hrecorded⟩⟩
      · exact .inl (Except.ok.inj hevent).symm
  · exact .inl (Except.ok.inj h).symm

/-- Recording changes nothing but the histories and the books. -/
def SameSettings (s t : Scanner Decimal) : Prop :=
  t = { s with history := t.history, books := t.books }

theorem sameSettings_recordPoint {point : TickerPoint Decimal}
    (h : s.recordPoint symbol point = .ok t) : SameSettings s t := by
  unfold Scanner.recordPoint at h
  dsimp only at h
  split_ifs at h
  · cases h
    rfl
  · cases h
    rfl

theorem sameSettings_processRow {p : Platform} {now : Instant} {item : Payload}
    (h : s.processRow p now item = .ok t) : SameSettings s t := by
  rcases Scanner.processRow_cases h with rfl | ⟨row, symbol, -, -, hticker | hbook⟩
  · rfl
  · obtain ⟨observedAt, point, -, -, hrecorded⟩ := hticker
    exact sameSettings_recordPoint hrecorded
  · obtain ⟨observedAt, quotes, book, -, -, -, rfl⟩ := hbook
    rfl

theorem allowedSymbols_processRow {p : Platform} {now : Instant} {item : Payload}
    (h : s.processRow p now item = .ok t) : t.allowedSymbols = s.allowedSymbols := by
  rw [sameSettings_processRow h]

end

section

variable (p : Platform) (now : Instant)

/-- A message does no harm: the call returns, malformed rows change nothing, and the others are
recorded as if they were alone. -/
structure Unharmed (s : Scanner Decimal) (rows : List Payload) : Prop where
  recorded : ∃ t, s.processRows p now rows = .ok t ∧
    s.processRows p now (rows.filter (wellFormed p s.allowedSymbols now)) = .ok t
  unchanged : ∀ before row after, rows = before ++ row :: after →
    wellFormed p s.allowedSymbols now row = false →
      ∀ u, s.processRows p now before = .ok u → u.processRow p now row = .ok u

variable {p now} {s : Scanner Decimal}

theorem processRows_cons {row : Payload} {rows : List Payload} :
    s.processRows p now (row :: rows) =
      s.processRow p now row >>= fun t => t.processRows p now rows :=
  List.foldlM_cons

theorem processRows_filter_cons {row : Payload} {rows : List Payload} {t : Scanner Decimal}
    (ht : s.processRow p now row = .ok t)
    (hsame : wellFormed p s.allowedSymbols now row = false → t = s) :
    s.processRows p now ((row :: rows).filter (wellFormed p s.allowedSymbols now)) =
      t.processRows p now (rows.filter (wellFormed p t.allowedSymbols now)) := by
  rw [allowedSymbols_processRow ht]
  cases hformed : wellFormed p s.allowedSymbols now row with
  | true =>
    rw [List.filter_cons_of_pos hformed, processRows_cons, ht]
    rfl
  | false => rw [List.filter_cons_of_neg (by simp [hformed]), hsame hformed]

theorem unharmed_cons {row : Payload} {rows : List Payload} :
    Unharmed p now s (row :: rows) ↔
      ∃ t, s.processRow p now row = .ok t ∧
        (wellFormed p s.allowedSymbols now row = false → t = s) ∧ Unharmed p now t rows := by
  constructor
  · intro h
    obtain ⟨last, hlast, hfiltered⟩ := h.recorded
    rw [processRows_cons] at hlast
    obtain ⟨t, ht, hrest⟩ := bind_eq_ok.mp hlast
    have hallowed := allowedSymbols_processRow ht
    have hsame : wellFormed p s.allowedSymbols now row = false → t = s := by
      intro hformed
      have hunchanged := h.unchanged [] row rows rfl hformed s rfl
      exact Except.ok.inj (ht.symm.trans hunchanged)
    rw [processRows_filter_cons ht hsame] at hfiltered
    refine ⟨t, ht, hsame, ⟨last, hrest, hfiltered⟩, ?_⟩
    intro before other after hrows hformed u hu
    refine h.unchanged (row :: before) other after (by rw [hrows]; rfl) (hallowed ▸ hformed) u ?_
    rw [processRows_cons, ht]
    exact hu
  · rintro ⟨t, ht, hsame, h⟩
    have hallowed := allowedSymbols_processRow ht
    obtain ⟨last, hlast, hfiltered⟩ := h.recorded
    rw [← processRows_filter_cons ht hsame] at hfiltered
    refine ⟨⟨last, ?_, hfiltered⟩, ?_⟩
    · rw [processRows_cons, ht]
      exact hlast
    · intro before other after hrows hformed u hu
      cases before with
      | nil =>
        cases hu
        obtain ⟨rfl, rfl⟩ := List.cons.inj hrows
        rw [ht, hsame hformed]
      | cons first before =>
        obtain ⟨rfl, rfl⟩ := List.cons.inj hrows
        rw [processRows_cons, ht] at hu
        exact h.unchanged before other after rfl (hallowed.symm ▸ hformed) u hu

theorem unharmed_iff {rows : List Payload} :
    Unharmed p now s rows ↔ ∀ before row after, rows = before ++ row :: after →
      ∀ u, s.processRows p now before = .ok u → RowHarmless p now u row := by
  induction rows generalizing s with
  | nil =>
    refine iff_of_true ⟨⟨s, rfl, rfl⟩, ?_⟩ ?_
    · intro before row after hrows
      simp at hrows
    · intro before row after hrows
      simp at hrows
  | cons row rows ih =>
    rw [unharmed_cons]
    constructor
    · rintro ⟨t, ht, hsame, h⟩ before other after hrows u hu
      cases before with
      | nil =>
        cases hu
        obtain ⟨rfl, rfl⟩ := List.cons.inj hrows
        exact (processRow_ok_iff p now s row).mp ⟨t, ht, hsame⟩
      | cons first before =>
        obtain ⟨rfl, rfl⟩ := List.cons.inj hrows
        rw [processRows_cons, ht] at hu
        exact ih.mp h before other after rfl u hu
    · intro h
      obtain ⟨t, ht, hsame⟩ := (processRow_ok_iff p now s row).mpr (h [] row rows rfl s rfl)
      refine ⟨t, ht, hsame, ih.mpr ?_⟩
      intro before other after hrows u hu
      refine h (row :: before) other after (by rw [hrows]; rfl) u ?_
      rw [processRows_cons, ht]
      exact hu

end

/-- A message does no harm exactly if each of its rows is harmless in the state that the rows
before it lead to. -/
theorem malformed_rows_harmless_iff (p : Platform) (now : Instant) (scanner : Scanner Decimal)
    (payload : Row) :
    Unharmed p now scanner (Scanner.rowsOf payload) ↔
      ∀ before row after, Scanner.rowsOf payload = before ++ row :: after →
        ∀ u, scanner.processRows p now before = .ok u → RowHarmless p now u row :=
  unharmed_iff

section

def exactPlatform : Platform where
  doubles := Studio.StrategyData.exactDoubles
  str _ := ""

def tickerRow (observedAt : Payload) (price quoteVolume : String) : Payload :=
  .obj [("e", .str "24hrTicker"), ("E", observedAt), ("s", .str "AAAUSDT"), ("c", .str price),
    ("q", .str quoteVolume), ("n", .int 100)]

def watchingScanner : Scanner Decimal where
  allowedSymbols := ["AAAUSDT"]
  lookback_pos := Scanner.default_lookback_pos
  stale_pos := Scanner.default_stale_pos
  limit_pos := Scanner.default_limit_pos

/-- A price that is no number ends the call before the next row is seen, and a price that is
not-a-number is recorded. -/
theorem malformed_rows_harm :
    ¬ Unharmed exactPlatform 0 watchingScanner (Scanner.rowsOf
      [("data", .arr [tickerRow (.int 0) "n/a" "1000", tickerRow (.int 0) "100" "1000"])]) ∧
    ¬ Unharmed exactPlatform 0 watchingScanner (Scanner.rowsOf
      [("data", .arr [tickerRow (.int 0) "NaN" "1000"])]) := by
  refine ⟨?_, ?_⟩
  · intro h
    obtain ⟨t, ht, -⟩ := h.recorded
    have hraised : (watchingScanner.processRows exactPlatform 0 (Scanner.rowsOf
        [("data", .arr [tickerRow (.int 0) "n/a" "1000", tickerRow (.int 0) "100" "1000"])])).isOk =
          false := by
      decide +kernel
    rw [ht] at hraised
    cases hraised
  · intro h
    have hsame := h.unchanged [] _ [] rfl (by decide +kernel) watchingScanner rfl
    have hrecorded : (watchingScanner.processRow exactPlatform 0
        (tickerRow (.int 0) "NaN" "1000")).toOption.map (fun s => s.history.length) = some 1 := by
      decide +kernel
    rw [hsame] at hrecorded
    cases hrecorded

end

end ChainQuantStudio.Universe
