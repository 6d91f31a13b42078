import Espalier.Marker

/-!
# Run-time helpers

Compiled programs call two small functions. Their source follows the program, each at most once and
only when the program calls it.
-/

namespace Espalier

/-- The functions that compiled programs rely on. -/
inductive Helper where
  /-- Calls a function on every item of a collection, or another one when there is no item. -/
  | iterate
  /-- Merges property objects under the key rules of static attributes. -/
  | merge
  deriving DecidableEq, Repr

/-- The name that programs call a helper by. -/
def Helper.name : Helper → String
  | .iterate => Marker.iterate
  | .merge => Marker.merge

/-- The lines of a helper's source. -/
def Helper.lines : Helper → List String
  | .iterate => [
    "function " ++ Marker.iterate ++ "(obj, each, alt) \x7b",
    "  var result = [], key;",
    "  if (obj == null) \x7b",
    "    result = [];",
    "  \x7d else if (typeof obj.length === 'number') \x7b",
    "    result = [].map.call(obj, function (value, index) \x7b",
    "      return each(value, index);",
    "    \x7d);",
    "  \x7d else \x7b",
    "    for (key in obj) result.push(each(obj[key], key));",
    "  \x7d",
    "  return !alt || result.length ? result : alt();",
    "\x7d"]
  | .merge => [
    "function " ++ Marker.merge ++ "() \x7b",
    "  var classes = [];",
    "  var attrs = \x7b\x7d;",
    "  [].slice.call(arguments).forEach(function (it) \x7b",
    "    for (var key in it) \x7b",
    "      var val = it[key];",
    "      switch (key) \x7b",
    "        case 'class':",
    "        case 'className':",
    "          if (Array.isArray(val)) \x7b",
    "            classes = classes.concat(val);",
    "          \x7d else if (val != null && val !== '') \x7b",
    "            classes.push(val);",
    "          \x7d",
    "          continue;",
    "        case 'for':",
    "          key = 'htmlFor';",
    "          break;",
    "        default:",
    "          if (/^data-/.test(key)) \x7b",
    "            if (val == null) continue;",
    "            if (typeof val !== 'string') val = JSON.stringify(val);",
    "            break;",
    "          \x7d",
    "          if (/^aria-/.test(key)) break;",
    "          key = key.split('-');",
    "          key = key[0] + key.slice(1).map(function (part) \x7b",
    "            return part.charAt(0).toUpperCase() + part.substr(1);",
    "          \x7d).join('');",
    "      \x7d",
    "      attrs[key] = val;",
    "    \x7d",
    "  \x7d);",
    "  if (classes.length) attrs.className = classes.join(' ');",
    "  return attrs;",
    "\x7d"]

/-- The source of a helper. -/
def Helper.source (h : Helper) : String :=
  String.intercalate "\n" h.lines

/-- Ask for a helper: it is added behind the others unless it is there. -/
def Helper.request (h : Helper) (helpers : List Helper) : List Helper :=
  if h ∈ helpers then helpers else helpers ++ [h]

/-- A program followed by the sources of its helpers. -/
def withHelpers (main : String) (helpers : List String) : String :=
  String.intercalate "\n" (main :: helpers)

end Espalier
