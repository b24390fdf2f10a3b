import Phrasebook.Locale.Basic
import Phrasebook.Template.Layout

/-!
# Phrasebook.TemplateCache

Parsed templates by locale and key.

Each locale has a partition for one version of its bundle.  A request for a newer
version replaces the partition by an empty one; a request for an older version
is answered by parsing, and leaves the cache as it is.  So a template is never
answered after its raw text was replaced.

Requests are counted: hits were answered from the cache, builds were parsed.  The
counters are 64 bits wide and wrap around.
-/

namespace Phrasebook

/-- The parsed templates of one version of a locale's bundle. -/
structure Partition where
  version : UInt64
  templates : Std.TreeMap String Template

namespace Partition

/-- A partition without templates. -/
def empty (version : UInt64) : Partition := ⟨version, ∅⟩

end Partition

/-- Partitions by locale tag, and the counts of requests. -/
structure TemplateCache where
  partitions : Std.TreeMap String Partition
  hits : UInt64
  builds : UInt64

namespace TemplateCache

/-- A cache without templates. -/
def empty : TemplateCache := ⟨∅, 0, 0⟩

/-- The partition that a request of a version looks in, unless the cache is ahead
of the version. -/
def partition? (c : TemplateCache) (l : Locale) (version : UInt64) : Option Partition :=
  match c.partitions[l.tag]? with
  | none => some (.empty version)
  | some p =>
    if p.version = version then some p
    else if p.version < version then some (.empty version)
    else none

/-- The template of a raw text, parsed unless it is cached for the locale, key and
version. -/
def getOrBuild (c : TemplateCache) (l : Locale) (key : String) (version : UInt64) (raw : String) :
    Template × TemplateCache :=
  match c.partition? l version with
  | none => (.parse raw, { c with builds := c.builds + 1 })
  | some p =>
    match p.templates[key]? with
    | some t =>
      (t, { c with partitions := c.partitions.insert l.tag p, hits := c.hits + 1 })
    | none =>
      let t := Template.parse raw
      let p := { p with templates := p.templates.insert key t }
      (t, { c with partitions := c.partitions.insert l.tag p, builds := c.builds + 1 })

/-- Drops the templates of a locale. -/
def invalidate (c : TemplateCache) (l : Locale) : TemplateCache :=
  { c with partitions := c.partitions.erase l.tag }

/-- Drops all templates. -/
def clear (c : TemplateCache) : TemplateCache := { c with partitions := ∅ }

/-- The number of templates. -/
def size (c : TemplateCache) : Nat :=
  c.partitions.foldl (fun n _ p => n + p.templates.size) 0

/-- There are no templates. -/
def isEmpty (c : TemplateCache) : Bool := c.size == 0

end TemplateCache

end Phrasebook
