import TemplateCache.Proofs.Compiler.Registration
import TemplateCache.Proofs.Compiler.Serial
import TemplateCache.Proofs.Naming

/-!
# What stands behind a code key

A record backs a code key when a compile under the key generates from it: the key is stale, or its
cached renderer was made from the content of the record. Only that makes stored code no longer
asked for, so whatever a store holds, and however its operations fail, calls that run to completion
keep a key backed until they change the record.
-/

namespace TemplateCache

variable {π : Type}

/-- Where renderers are used again, a code key is stale or has one made from the content. -/
def Bench.Untainted (c : Compiler π) (content : Content) (codeKey : String) (b : Bench π) : Prop :=
  c.settings.caching = true → b.state.cache.isStale codeKey = true ∨
    ∃ record, b.state.cache.get? codeKey = some record ∧ c.MadeFrom content record

/-- The content that is registered under a content key backs a code key. -/
structure Bench.Backs (c : Compiler π) (content : Content) (contentKey codeKey : String)
    (b : Bench π) : Prop where
  holds : b.Holds contentKey content
  untainted : b.Untainted c content codeKey

/-! ## Other keys -/

section

variable {c : Compiler π} {content : Content} {contentKey codeKey k : String} {b b' : Bench π}

theorem Bench.Untainted.wanes (h : b.Untainted c content codeKey)
    (wanes : CodeCache.Wanes codeKey b.state.cache b'.state.cache) :
    b'.Untainted c content codeKey := by
  intro caching
  rcases wanes with stale | ⟨entry, mark⟩
  · exact .inl stale
  · rw [entry, mark]
    exact h caching

theorem wanes_register {resolver : Resolver} (record : ContentRecord) :
    CodeCache.Wanes k b.state.cache (Bench.register resolver record b).2.state.cache := by
  cases changed : (b.state.registry.register record).1.2.changed with
  | true =>
      rw [Bench.register_changed changed, Bench.cache_invalidate]
      exact CodeCache.wanes_invalidate
  | false =>
      rw [Bench.register_unchanged changed]
      exact CodeCache.wanes_refl _ _

theorem Bench.Chore.wanes {resolver : Resolver} (chore : Bench.Chore resolver b b') :
    CodeCache.Wanes k b.state.cache b'.state.cache := by
  induction chore with
  | apart registry cache flights code =>
      rw [cache]
      exact CodeCache.wanes_refl _ _
  | register record => exact wanes_register record
  | @erase b name =>
      obtain ⟨keys, -, cache⟩ : ∃ keys, (∀ k, k ∈ keys ↔ k ∈ b.detached resolver name) ∧
          (Bench.eraseName resolver name b).state.cache =
            ((b.state.cache.invalidate keys).2).dropName name := Bench.cache_eraseName
      rw [cache]
      exact CodeCache.wanes_invalidate.trans CodeCache.wanes_invalidate
  | trans first second ih ih' => exact ih.trans ih'

theorem Move.wanes_other {input : CompileInput} {a a' : Stage} (m : Move c input codeKey a b a' b')
    (other : k ≠ codeKey) (sound : a.Sound codeKey b) :
    CodeCache.Wanes k b.state.cache b'.state.cache := by
  cases m with
  | give full key => exact wanes_register _
  | found =>
      unfold Bench.note
      split
      · exact CodeCache.wanes_refl _ _
      · exact CodeCache.wanes_refl _ _
  | @publish b t record =>
      have own : record.key = codeKey := sound.made rfl
      show CodeCache.Wanes k b.state.cache (if _ then _ else _)
      split
      · exact CodeCache.wanes_insert (own ▸ other)
      · exact CodeCache.wanes_refresh other
  | _ => exact CodeCache.wanes_refl _ _

end

/-! ## The key itself -/

/-- The stages of a compile under a backed key. It never asks for code or content. -/
def Stage.Drawing (c : Compiler π) (content : Content) (codeKey : String) (b : Bench π) :
    Stage → Prop
  | asked => True
  | registered given => given = none
  | waiting t => t.given = none ∧ t.asksForCode c codeKey b = false
  | called t => t.given = none ∧ t.asksForCode c codeKey b = false
  | seeking t => t.given = none
  | generating _ found => found = content
  | writing _ renderer => c.generator.generate content c.settings.generator = .ok renderer
  | made _ record => c.MadeFrom content record
  | ended _ result => c.Yields content result
  | leaving _ result => c.Yields content result
  | finished result => c.Yields content result
  | fetching _ => False
  | reading _ => False

section

variable {c : Compiler π} {input : CompileInput} {content : Content} {contentKey codeKey : String}
  {a a' : Stage} {b b' d : Bench π}

theorem Bench.Untainted.asks (untainted : b.Untainted c content codeKey) {t : Ticket}
    (missed : c.settings.caching = true → b.state.cache.get? codeKey = none) :
    t.asksForCode c codeKey b = false := by
  unfold Ticket.asksForCode
  cases caching : c.settings.caching with
  | false => rfl
  | true =>
      rcases untainted caching with stale | ⟨record, cached, -⟩
      · rw [stale]
        simp
      · rw [missed caching] at cached
        exact nomatch cached

/-- A compile that has made its renderer from the content keeps the key untainted. -/
theorem untainted_publish {t : Ticket} {record : CodeRecord} (own : record.key = codeKey)
    (made : c.MadeFrom content record) (untainted : b.Untainted c content codeKey) :
    (c.publish codeKey t.since record b).Untainted c content codeKey := by
  intro caching
  have same : (c.publish codeKey t.since record b).state.cache =
      (b.state.cache.insert record t.since).2 := if_pos caching
  rw [same]
  cases outdated : b.state.cache.isOutdated record.key t.since with
  | true =>
      rw [CodeCache.insert_outdated outdated]
      exact untainted caching
  | false =>
      rw [CodeCache.insert_fresh outdated]
      refine .inr ⟨record, ?_, made⟩
      show (b.state.cache.entries.insert record.key record).get? codeKey = some record
      rw [KeyMap.get?_insert, if_pos own.symm]

/-- What holds throughout a compile under a backed key. -/
structure Stage.Backed (c : Compiler π) (content : Content) (contentKey codeKey : String)
    (loaded : Nat) (a : Stage) (b : Bench π) : Prop where
  backs : b.Backs c content contentKey codeKey
  drawing : a.Drawing c content codeKey b
  loaded : b.state.loaded = loaded

theorem Move.backed {loaded : Nat} (m : Move c input codeKey a b a' b')
    (bare : input.content = none)
    (key : input.address.key c.store.resolver .content = .ok contentKey)
    (undisturbed : a.Undisturbed codeKey b)
    (backed : a.Backed c content contentKey codeKey loaded b) :
    a'.Backed c content contentKey codeKey loaded b' := by
  obtain ⟨⟨holds, untainted⟩, drawing, loaded⟩ := backed
  cases m with
  | bare => exact ⟨⟨holds, untainted⟩, rfl, loaded⟩
  | unplaced full => exact nomatch bare.symm.trans full
  | give full => exact nomatch bare.symm.trans full
  | hit caching cached =>
      refine ⟨⟨holds, untainted⟩, ?_, loaded⟩
      rintro record ⟨⟩
      -- A key with a cached renderer is not stale, so the renderer is the one made of the content.
      rcases untainted caching with stale | ⟨found, there, made⟩
      · rw [undisturbed.bench.cache.cached cached] at stale
        exact nomatch stale
      · cases cached.symm.trans there
        exact made
  | board missed =>
      cases drawing
      exact ⟨⟨holds, untainted⟩, ⟨rfl, untainted.asks missed⟩, loaded⟩
  | share landed => exact nomatch (undisturbed.solo.empty rfl).symm.trans landed
  | turn flying due => exact ⟨⟨holds, untainted⟩, drawing, loaded⟩
  -- Where no renderer is cached, a backed key is stale: code that the store has is not asked for.
  | take asks kept => exact nomatch drawing.2.symm.trans asks
  | fetch asks mayRead missing => exact nomatch drawing.2.symm.trans asks
  | seek nothing => exact ⟨⟨holds, untainted⟩, drawing.1, loaded⟩
  | given given => exact nomatch Eq.trans (Eq.symm drawing) given
  -- What is compiled is the record under the content key, which nobody reads from the store.
  | serve bare' key' serves =>
      cases key.symm.trans key'
      obtain ⟨record, there, same⟩ := holds
      unfold Registry.serving at serves
      rw [there] at serves
      cases serves
      exact ⟨⟨⟨_, there, same⟩, untainted⟩, same, loaded⟩
  | read bare' key' unknown =>
      cases key.symm.trans key'
      obtain ⟨record, there, same⟩ := holds
      unfold Registry.serving at unknown
      rw [there] at unknown
      exact nomatch unknown
  | seekFails => exact ⟨⟨holds, untainted⟩, nofun, loaded⟩
  | refuse => exact ⟨⟨holds, untainted⟩, nofun, loaded⟩
  | keep mayWrite generates =>
      cases drawing
      exact ⟨⟨holds, untainted⟩, generates, loaded⟩
  | generate mayNotWrite generates =>
      cases drawing
      exact ⟨⟨holds, untainted⟩, generates, loaded⟩
  | writeOn change => exact ⟨⟨holds, untainted⟩, drawing, loaded⟩
  | written kept => exact ⟨⟨holds, untainted⟩, drawing, loaded⟩
  | writeFails => exact ⟨⟨holds, untainted⟩, nofun, loaded⟩
  | publish =>
      refine ⟨⟨holds, untainted_publish (undisturbed.stage.made rfl) drawing untainted⟩, ?_, loaded⟩
      rintro record ⟨⟩
      exact drawing
  | land => exact ⟨⟨holds, untainted⟩, drawing, loaded⟩
  | handOver => exact ⟨⟨holds, untainted⟩, drawing, loaded⟩
  | leave => exact ⟨⟨holds, untainted⟩, drawing, loaded⟩
  | _ => exact drawing.elim

theorem Bench.Untainted.elsewhere (untainted : b.Untainted c content codeKey)
    (changed : b.Elsewhere d) : d.Untainted c content codeKey := by
  unfold Bench.Untainted
  rw [changed.state]
  exact untainted

theorem Bench.Backs.elsewhere (backs : b.Backs c content contentKey codeKey)
    (changed : b.Elsewhere d) : d.Backs c content contentKey codeKey where
  holds := by
    unfold Bench.Holds
    rw [changed.state]
    exact backs.holds
  untainted := backs.untainted.elsewhere changed

theorem Stage.Backed.elsewhere {loaded : Nat}
    (backed : a.Backed c content contentKey codeKey loaded b) (changed : b.Elsewhere d) :
    a.Backed c content contentKey codeKey loaded d where
  backs := backed.backs.elsewhere changed
  drawing := by
    have same (t : Ticket) : t.asksForCode c codeKey d = t.asksForCode c codeKey b := by
      unfold Ticket.asksForCode
      rw [changed.state]
    have drawing := backed.drawing
    cases a with
    | waiting t => exact ⟨drawing.1, (same t).trans drawing.2⟩
    | called t => exact ⟨drawing.1, (same t).trans drawing.2⟩
    | _ => exact drawing
  loaded := by
    rw [changed.state]
    exact backed.loaded

/-- A compile under a backed key returns what is made from the content, and loads nothing. -/
theorem Compiler.Does.drawn (lawful : c.store.Lawful) {answer : Except CompileError Answer}
    (does : c.Does (.compile input) b answer d) (resting : b.Resting)
    (backs : b.Backs c content contentKey codeKey) (bare : input.content = none)
    (coded : input.address.key c.store.resolver .code = .ok codeKey)
    (key : input.address.key c.store.resolver .content = .ok contentKey) :
    d.Backs c content contentKey codeKey ∧ d.state.loaded = b.state.loaded ∧
      ∀ record, answer = .ok (.code record) → c.MadeFrom content record := by
  obtain ⟨result, rfl, backed, -⟩ := does.compiled lawful coded resting
    (Stage.Backed c content contentKey codeKey b.state.loaded)
    (fun m undisturbed backed => Move.backed m bare key undisturbed backed)
    (fun changed backed => backed.elsewhere changed) ⟨backs, trivial, rfl⟩
  refine ⟨backed.backs, backed.loaded, fun record same => ?_⟩
  cases result with
  | ok made =>
      cases same
      exact backed.drawing record rfl
  | error e => exact nomatch same

/-- A compile under another key keeps a key untainted. -/
theorem Compiler.Does.untainted_other (lawful : c.store.Lawful) {k : String}
    {answer : Except CompileError Answer} (does : c.Does (.compile input) b answer d)
    (resting : b.Resting) (coded : input.address.key c.store.resolver .code = .ok k)
    (other : codeKey ≠ k) (untainted : b.Untainted c content codeKey) :
    d.Untainted c content codeKey := by
  obtain ⟨-, -, untainted, -⟩ := does.compiled lawful coded resting
    (fun _ b => b.Untainted c content codeKey)
    (fun m undisturbed untainted => untainted.wanes (Move.wanes_other m other undisturbed.stage))
    (fun changed untainted => untainted.elsewhere changed) untainted
  exact untainted

end

/-! ## Calls -/

/-- A call that compiles under a code key compiles what is under the content key. -/
def Command.Suits (resolver : Resolver) (contentKey codeKey : String) (command : Command) : Prop :=
  ∀ input, command = .compile input → input.address.key resolver .code = .ok codeKey →
    input.content = none ∧ input.address.key resolver .content = .ok contentKey

section

variable {c : Compiler π} {command : Command} {content : Content} {contentKey codeKey : String}
  {b d : Bench π} {answer : Except CompileError Answer}

/-- Calls that leave the record as it is keep the key backed. -/
theorem Compiler.Does.backs (lawful : c.store.Lawful) (does : c.Does command b answer d)
    (resting : b.Resting) (backs : b.Backs c content contentKey codeKey)
    (suits : command.Suits c.store.resolver contentKey codeKey)
    (same : d.state.registry.byKey.get? contentKey = b.state.registry.byKey.get? contentKey) :
    d.Backs c content contentKey codeKey := by
  have holds : d.Holds contentKey content := by
    unfold Bench.Holds
    rw [same]
    exact backs.holds
  refine ⟨holds, ?_⟩
  by_cases compiles : ∃ input, command = .compile input
  · obtain ⟨input, rfl⟩ := compiles
    cases coded : input.address.key c.store.resolver .code with
    | error e =>
        obtain ⟨rfl, -⟩ := does.unnamed coded
        exact backs.untainted
    | ok k =>
        by_cases own : codeKey = k
        · subst own
          obtain ⟨bare, key⟩ := suits input rfl coded
          exact (does.drawn lawful resting backs bare coded key).1.untainted
        · exact does.untainted_other lawful resting coded own backs.untainted
  · have errand : ∀ input, command ≠ .compile input := fun input is => compiles ⟨input, is⟩
    have stays : ∀ all, command ≠ .clear all := by
      -- Clearing would have dropped the record.
      rintro all rfl
      obtain ⟨record, there, -⟩ := holds
      rw [does.registry_cleared] at there
      exact nomatch there
    exact backs.untainted.wanes (does.chore lawful errand stays).wanes

theorem Compiler.Serial.backs {fits : Command → Bench π → Bench π → Prop} (lawful : c.store.Lawful)
    (serial : c.Serial fits b d) (resting : b.Resting)
    (backs : b.Backs c content contentKey codeKey)
    (suits : ∀ {command b d}, fits command b d → command.Suits c.store.resolver contentKey codeKey)
    (same : ∀ {command b d}, fits command b d →
      d.state.registry.byKey.get? contentKey = b.state.registry.byKey.get? contentKey) :
    d.Backs c content contentKey codeKey := by
  induction serial with
  | refl => exact backs
  | call before does fitting ih =>
      exact does.backs lawful (before.resting lawful resting) ih (suits fitting) (same fitting)
  | elsewhere before changed ih => exact ih.elsewhere changed

theorem Compiler.Does.registered {name : String}
    (does : c.Does (.register name content) b answer d)
    (named : c.store.resolver.resolve name .content none none = .ok contentKey) :
    d = (Bench.register c.store.resolver
      (.make name contentKey content .explicit none none) b).2 := by
  simp only [Compiler.Does, Command.work, Compiler.register, named] at does
  cases does with
  | act rest =>
      cases rest
      rfl

/-- A registration that changes the record under a content key backs the plain code key. -/
theorem Compiler.Does.backs_registered {name : String}
    (does : c.Does (.register name content) b answer d)
    (named : c.store.resolver.resolve name .content none none = .ok contentKey)
    (coded : c.store.resolver.resolve name .code none none = .ok codeKey)
    (changes : d.state.registry.byKey.get? contentKey ≠ b.state.registry.byKey.get? contentKey) :
    d.Backs c content contentKey codeKey := by
  have left := does.registered named
  cases changed : (b.state.registry.register
      (.make name contentKey content .explicit none none)).1.2.changed with
  | true =>
      obtain ⟨holds, serves, -⟩ := Session.settled_of_changed (s := ⟨b, []⟩) named coded changed
      rw [Session.bench_register named, ← left] at holds serves
      refine ⟨holds, fun caching => ?_⟩
      cases stale : d.state.cache.isStale codeKey with
      | true => exact .inl rfl
      | false => exact .inr (serves stale).1
  | false =>
      rw [left, Bench.register_unchanged changed, Registry.register_unchanged changed] at changes
      exact absurd rfl changes

/-! ## Plain calls -/

/-- A plain call compiles a name alone, or does not compile. -/
def Command.Plain (command : Command) : Prop :=
  ∀ input, command = .compile input → ∃ name, input = ⟨⟨name, none, none⟩, none⟩

theorem Command.Plain.suits {resolver : Resolver} {name : String} (plain : command.Plain)
    (named : resolver.resolve name .content none none = .ok contentKey)
    (coded : resolver.resolve name .code none none = .ok codeKey) :
    command.Suits resolver contentKey codeKey := by
  intro input compiles same
  obtain ⟨other, rfl⟩ := plain input compiles
  exact ⟨rfl, Resolver.plain_content_of_code named (same.trans coded.symm)⟩

/-- Whatever code a store holds and however its operations fail: if a registration was the last of
all calls to change the record at the content key of a name, then a compile of the name that
returns a renderer returns one that is generated from the registered content, and loads none. -/
theorem last_registration_is_compiled (lawful : c.store.Lawful) {site : Site π}
    (keyed : site.Keyed) {name other : String} {e f : Bench π} {record : CodeRecord}
    (named : c.store.resolver.resolve name .content none none = .ok contentKey)
    (same : c.store.resolver.resolve other .content none none = .ok contentKey)
    (before : c.Serial (fun command _ _ => command.Plain) (Compiler.start site) b)
    (registers : c.Does (.register other content) b answer d)
    (changes : d.state.registry.byKey.get? contentKey ≠ b.state.registry.byKey.get? contentKey)
    (after : c.Serial (fun command b d => command.Plain ∧
      d.state.registry.byKey.get? contentKey = b.state.registry.byKey.get? contentKey) d e)
    (compiles : c.Does (.compile ⟨⟨name, none, none⟩, none⟩) e (.ok (.code record)) f) :
    c.MadeFrom content record ∧ f.state.loaded = e.state.loaded := by
  have resting := before.resting lawful (Bench.resting_start keyed)
  have rested := registers.resting lawful resting
  have coded := Resolver.plain_code named
  have backs := after.backs lawful rested
    (registers.backs_registered same (Resolver.plain_code same) changes)
    (fun fits => fits.1.suits named coded) fun fits => fits.2
  obtain ⟨-, loaded, made⟩ :=
    compiles.drawn lawful (after.resting lawful rested) backs rfl coded named
  exact ⟨made record rfl, loaded⟩

end

namespace Sample

/-- A site whose store has code of an earlier text. -/
def stocked : Site Unit where
  overlay := (∅ : Overlay).putCode
    ⟨"partials/a.html.compiled", "a", ⟨some "old", fun _ _ => .ok "old"⟩⟩
  own := ()

/-- The bench after a new text was registered there. -/
def restocked : Bench Unit :=
  (Bench.register resolver (.make "a" "partials/a.html" (.text "new") .explicit none none)
    (Compiler.start stocked)).2

end Sample

open Sample

theorem stocked_name_is_compiled :
    ∃ record f, slow.Does (.compile ⟨⟨"a", none, none⟩, none⟩) restocked (.ok (.code record)) f ∧
      slow.MadeFrom (.text "new") record ∧ f.state.loaded = 0 := by
  obtain ⟨record, f, compiles⟩ : ∃ record f,
      slow.Does (.compile ⟨⟨"a", none, none⟩, none⟩) restocked (.ok (.code record)) f :=
    Compiler.exists_does (by decide)
  have registers : slow.Does (.register "a" (.text "new")) (Compiler.start stocked)
      (.ok (.content (.make "a" "partials/a.html" (.text "new") .explicit none none))) restocked :=
    Compiler.does_of_finish rfl
  have keyed : stocked.Keyed := by
    intro key record found
    simp only [stocked, Overlay.putCode] at found
    rw [KeyMap.get?_insert] at found
    split at found
    · cases found
      exact Eq.symm ‹_›
    · exact nomatch found
  have changes : restocked.state.registry.byKey.get? "partials/a.html" ≠ none := nofun
  exact ⟨record, f, compiles, last_registration_is_compiled (Store.delayed_lawful 100) keyed rfl rfl
    .refl registers changes .refl compiles⟩

end TemplateCache
