import Testplan.Field
import Testplan.Scenario
/-!
# What a crawler found

A `Discovery` describes the application under test: its pages with their titles,
headings, forms and links.  It is only read.

A page is looked up by its path (`Discovery.page?`), so that absolute and
relative addresses of one page agree.
-/
namespace Testplan

/-- A form of a page. -/
structure DiscoveredForm where
  selector : Option String := none
  action : Option String := none
  fields : List FieldDescriptor := []
  submit : Option String := none
deriving DecidableEq

/-- A link of a page. -/
structure DiscoveredLink where
  href : String
  text : Option String := none
deriving DecidableEq

/-- **A page** as a crawler saw it. -/
structure DiscoveredPage where
  path : String
  title : Option String := none
  headings : List String := []
  text : List String := []
  forms : List DiscoveredForm := []
  links : List DiscoveredLink := []
  buttons : List String := []
deriving DecidableEq

/-- **What a crawler found**: the pages of an application. -/
structure Discovery where
  baseUrl : Option String := none
  pages : List DiscoveredPage := []
deriving DecidableEq

/-- A text by which a visitor knows the page: its title, or its first heading that is
not blank. -/
def DiscoveredPage.landmark (p : DiscoveredPage) : Option String :=
  (p.title.filter fun t => !Text.isBlankText t) <|> p.headings.find? fun h => !Text.isBlankText h

/-- The fields of a page in order. -/
def DiscoveredPage.fields (p : DiscoveredPage) : List FieldDescriptor :=
  p.forms.flatMap DiscoveredForm.fields

namespace Discovery

/-- The first page with the path of a URL. -/
def page? (d : Discovery) (url : String) : Option DiscoveredPage :=
  d.pages.find? fun p => urlPath p.path = urlPath url

/-- The fields of all pages in order. -/
def fields (d : Discovery) : List FieldDescriptor := d.pages.flatMap DiscoveredPage.fields

end Discovery

end Testplan
